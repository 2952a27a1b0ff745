import KeywordRunner.Text.Blank

/-!
# Text.Lines — the lines of a text

A line ends at a newline, and one carriage return directly before that newline belongs to the
line ending. A newline at the very end of a text starts no further line.
-/

namespace KeywordRunner.Text

/-- The pieces of a text between separators; there is always at least one. -/
def splitOn (separator : Char) : List Char → List (List Char)
  | [] => [[]]
  | c :: cs =>
    if c = separator then [] :: splitOn separator cs
    else
      match splitOn separator cs with
      | [] => [[c]]
      | p :: ps => (c :: p) :: ps

/-- Without one carriage return at the end. -/
def dropReturn (cs : List Char) : List Char :=
  match cs.reverse with
  | '\r' :: rest => rest.reverse
  | _ => cs

/-- Turns the pieces between newlines into lines. -/
def linesOfPieces : List (List Char) → List (List Char)
  | [] => []
  | [last] => if last = [] then [] else [last]
  | p :: ps => dropReturn p :: linesOfPieces ps

def lines (s : String) : List String :=
  (linesOfPieces (splitOn '\n' s.toList)).map String.ofList

/-- Without any carriage returns at the end. -/
def dropReturns (s : String) : String := String.ofList (dropEnd (· == '\r') s.toList)

theorem splitOn_ne_nil (separator : Char) (cs : List Char) : splitOn separator cs ≠ [] := by
  induction cs with
  | nil => simp [splitOn]
  | cons c cs ih =>
    simp only [splitOn]
    split
    · simp
    · split <;> simp

end KeywordRunner.Text
