import KeywordRunner.Text.Lines

/-!
# Proofs.Text.Lines — the lines of texts that are put together

A text that ends in a newline leaves no line open, so whatever follows it begins a line of its own.

* **`splitOn_append`** — a separator between two texts divides their pieces.
* **`lines_append_of_ended`** — the lines of two texts, one after the other, when the first leaves
  no line open.
-/

namespace KeywordRunner.Text

theorem splitOn_of_eq (separator : Char) (cs : List Char) :
    splitOn separator (separator :: cs) = [] :: splitOn separator cs := by
  rw [splitOn, if_pos rfl]

theorem splitOn_of_ne {separator c : Char} (h : c ≠ separator) {cs p : List Char}
    {ps : List (List Char)} (hpieces : splitOn separator cs = p :: ps) :
    splitOn separator (c :: cs) = (c :: p) :: ps := by
  rw [splitOn, if_neg h, hpieces]

/-- No piece goes across a separator. -/
theorem splitOn_append (separator : Char) (cs ds : List Char) :
    splitOn separator (cs ++ separator :: ds) = splitOn separator cs ++ splitOn separator ds := by
  induction cs with
  | nil => exact splitOn_of_eq separator ds
  | cons c cs ih =>
    by_cases hc : c = separator
    · rw [hc, List.cons_append, splitOn_of_eq, splitOn_of_eq, ih, List.cons_append]
    · -- the first piece of `cs`, which is there in any case, becomes longer by `c`
      obtain ⟨p, ps, hpieces⟩ := List.exists_cons_of_ne_nil (splitOn_ne_nil separator cs)
      rw [hpieces, List.cons_append] at ih
      rw [List.cons_append, splitOn_of_ne hc hpieces, splitOn_of_ne hc ih, List.cons_append]

/-- Pieces with others behind them have ended in a newline, so each of them is a line. -/
theorem linesOfPieces_append (ps : List (List Char)) {qs : List (List Char)} (hqs : qs ≠ []) :
    linesOfPieces (ps ++ qs) = ps.map dropReturn ++ linesOfPieces qs := by
  induction ps with
  | nil => rfl
  | cons p ps ih =>
    obtain ⟨q, rest, hrest⟩ : ∃ q rest, ps ++ qs = q :: rest :=
      List.exists_cons_of_ne_nil (List.append_ne_nil_of_right_ne_nil ps hqs)
    have hline : linesOfPieces (p :: (ps ++ qs)) = dropReturn p :: linesOfPieces (ps ++ qs) := by
      rw [hrest]
      rfl
    rw [List.cons_append, hline, ih, List.map_cons, List.cons_append]

/-- What follows a newline adds lines and changes none. -/
theorem lines_append_newline (front b : String) :
    lines (front ++ "\n" ++ b) = lines (front ++ "\n") ++ lines b := by
  have hpieces (rest : List Char) :
      linesOfPieces (splitOn '\n' (front.toList ++ '\n' :: rest))
        = (splitOn '\n' front.toList).map dropReturn ++ linesOfPieces (splitOn '\n' rest) := by
    rw [splitOn_append, linesOfPieces_append _ (splitOn_ne_nil '\n' rest)]
  have hfront : (front ++ "\n").toList = front.toList ++ '\n' :: [] := String.toList_append
  have hwhole : (front ++ "\n" ++ b).toList = front.toList ++ '\n' :: b.toList := by
    rw [String.toList_append, hfront, List.append_assoc]
    rfl
  -- behind the last newline there is an empty piece, and that is no line
  have hnone : linesOfPieces (splitOn '\n' []) = [] := rfl
  unfold lines
  rw [hwhole, hfront, hpieces, hpieces, hnone, List.append_nil, List.map_append]

/-- A text that is empty or ends in a newline leaves no line open. -/
theorem lines_append_of_ended {a : String} (ha : a = "" ∨ ∃ front, a = front ++ "\n")
    (b : String) : lines (a ++ b) = lines a ++ lines b := by
  rcases ha with rfl | ⟨front, rfl⟩
  · rw [String.empty_append]
    rfl
  · exact lines_append_newline front b

end KeywordRunner.Text
