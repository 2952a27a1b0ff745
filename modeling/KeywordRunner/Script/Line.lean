import KeywordRunner.Script.Fault
import KeywordRunner.Script.Token

/-!
# Script.Line — one line of a script

A line is cut into runs by spaces, where a space between double quotes is part of its run. The
quotes are dropped; a run that had any is quoted, so an empty pair of quotes is a word of its own.
An unquoted `as` divides a line into the words of a call and the name that takes its result. A
line whose first character other than a blank is `#` is a comment.
-/

namespace KeywordRunner.Script

inductive Line.Content where
  | comment
  /-- A keyword with its arguments, and the variable that takes the result. -/
  | call (items : List String) (output : Option String)
  deriving DecidableEq, Repr

structure Line where
  raw : String
  number : LineNumber
  content : Line.Content
  deriving DecidableEq, Repr

namespace Line

def isComment (l : Line) : Bool :=
  match l.content with
  | .comment => true
  | .call _ _ => false

/-- The words of the line, without the `as` part. -/
def items (l : Line) : List String :=
  match l.content with
  | .comment => []
  | .call items _ => items

def output (l : Line) : Option String :=
  match l.content with
  | .comment => none
  | .call _ output => output

def keyword (l : Line) : Option String := l.items.head?

def args (l : Line) : List String := l.items.tail

/-- The variables that the line reads, in order. -/
def references (l : Line) : List String := l.items.filterMap Token.variableName?

/-! ### Cutting a line into words -/

/-- One word, and whether it was written with quotes. -/
structure Word where
  text : String
  quoted : Bool
  deriving DecidableEq, Repr

/-- The pieces between spaces outside quotes, quotes included; `inside` tells whether the text
starts between quotes. -/
def splitRuns (inside : Bool) : List Char → List (List Char)
  | [] => [[]]
  | c :: cs =>
    if c = ' ' ∧ inside = false then [] :: splitRuns false cs
    else
      match splitRuns (if c = '"' then !inside else inside) cs with
      | [] => [[c]]
      | r :: rs => (c :: r) :: rs

/-- A run without its quotes. -/
def Word.ofRun (run : List Char) : Word :=
  ⟨String.ofList (run.filter (· != '"')), run.contains '"'⟩

/-- The words of a line whose quotes are paired. -/
def words (raw : String) : List Word :=
  ((splitRuns false raw.toList).filter (· ≠ [])).map Word.ofRun

/-- Whether a quote is left open at the end. -/
def hasOpenQuote (raw : String) : Bool := raw.toList.count '"' % 2 == 1

/-! ### The `as` part -/

/-- Whether a word divides the call from the name of its result. -/
def Word.isAs (w : Word) : Bool := !w.quoted && w.text == "as"

/-- Whether a word may name a variable. -/
def isBareName (name : String) : Bool := name != "" && name.toList.head? != some '$'

/-- The words of the call, and the name after the first `as`. -/
def splitBinding (ws : List Word) : Except BindingFault (List String × Option String) :=
  let front := ws.takeWhile fun w => !w.isAs
  let items := front.map (·.text)
  match ws.dropWhile fun w => !w.isAs with
  | [] => .ok (items, none)
  | _ :: after =>
    if front = [] then .error .noKeyword
    else
      match after with
      | [] => .error .noName
      | [name] => if isBareName name.text then .ok (items, some name.text) else .error .badName
      | _ => .error .severalNames

def startsComment (raw : String) : Bool :=
  (Text.dropStart Text.isBlank raw.toList).head? == some '#'

def read (raw : String) (number : LineNumber) : Except LoadFault Line :=
  if startsComment raw then .ok ⟨raw, number, .comment⟩
  else if hasOpenQuote raw then .error ⟨number, .unterminatedQuote⟩
  else
    match splitBinding (words raw) with
    | .error reason => .error ⟨number, .malformedBinding reason⟩
    | .ok (items, output) => .ok ⟨raw, number, .call items output⟩

/-! ### Laws -/

@[simp] theorem keyword_of_isComment {line : Line} (h : line.isComment = true) :
    line.keyword = none := by
  obtain ⟨raw, number, content⟩ := line
  cases content with
  | comment => rfl
  | call items output => exact absurd h (by simp [isComment])

@[simp] theorem args_of_isComment {line : Line} (h : line.isComment = true) : line.args = [] := by
  obtain ⟨raw, number, content⟩ := line
  cases content with
  | comment => rfl
  | call items output => exact absurd h (by simp [isComment])

@[simp] theorem output_of_isComment {line : Line} (h : line.isComment = true) :
    line.output = none := by
  obtain ⟨raw, number, content⟩ := line
  cases content with
  | comment => rfl
  | call items output => exact absurd h (by simp [isComment])

/-- A line that can be read keeps its text and the number it was given. -/
theorem raw_number_of_read {raw : String} {number : LineNumber} {line : Line}
    (h : read raw number = .ok line) : line.raw = raw ∧ line.number = number := by
  unfold read at h
  split at h
  · cases h
    exact ⟨rfl, rfl⟩
  · split at h
    · exact absurd h (by simp)
    · split at h
      · exact absurd h (by simp)
      · cases h
        exact ⟨rfl, rfl⟩

/-- A line that cannot be read is reported under the number it was given. -/
theorem line_of_read_error {raw : String} {number : LineNumber} {fault : LoadFault}
    (h : read raw number = .error fault) : fault.line = number := by
  unfold read at h
  split at h
  · exact absurd h (by simp)
  · split at h
    · cases h
      rfl
    · split at h
      · cases h
        rfl
      · exact absurd h (by simp)

/-- A character that is no space is in some run. -/
theorem exists_run_ne_nil {cs : List Char} {c : Char} (hmem : c ∈ cs) (hc : c ≠ ' ')
    (inside : Bool) : ∃ run ∈ splitRuns inside cs, run ≠ [] := by
  induction cs generalizing inside with
  | nil => exact absurd hmem List.not_mem_nil
  | cons d cs ih =>
    rw [splitRuns]
    split
    · next hspace =>
      -- the first character is a space, so `c` comes after it
      rcases List.mem_cons.1 hmem with rfl | hmem
      · exact absurd hspace.1 hc
      · obtain ⟨run, hrun, hne⟩ := ih hmem false
        exact ⟨run, List.mem_cons_of_mem _ hrun, hne⟩
    · split
      · exact ⟨[d], List.mem_singleton_self _, by simp⟩
      · next r rs _ => exact ⟨d :: r, List.mem_cons_self, by simp⟩

/-- A line that is not all spaces has words. -/
theorem words_ne_nil_of_mem {raw : String} {c : Char} (hmem : c ∈ raw.toList) (hc : c ≠ ' ') :
    words raw ≠ [] := by
  obtain ⟨run, hrun, hne⟩ := exists_run_ne_nil hmem hc false
  intro hnil
  have hnone := List.filter_eq_nil_iff.1 (List.map_eq_nil_iff.1 hnil) run hrun
  exact hnone (by simpa using hne)

theorem words_ne_nil {raw : String} (h : Text.isBlankText raw = false) : words raw ≠ [] := by
  obtain ⟨c, hmem, hc⟩ := List.all_eq_false.1 h
  refine words_ne_nil_of_mem hmem ?_
  rintro rfl
  exact hc rfl

/-- A binding leaves at least the keyword. -/
theorem items_ne_nil_of_splitBinding {ws : List Word} {items : List String}
    {output : Option String} (hws : ws ≠ []) (h : splitBinding ws = .ok (items, output)) :
    items ≠ [] := by
  unfold splitBinding at h
  dsimp only at h
  split at h
  · next hafter =>
    cases h
    have hwhole := List.takeWhile_append_dropWhile (p := fun w => !w.isAs) (l := ws)
    rw [hafter, List.append_nil] at hwhole
    rw [hwhole]
    exact fun hnil => hws (List.map_eq_nil_iff.1 hnil)
  · split at h
    · exact absurd h (by simp)
    · next hfront =>
      have hitems : (ws.takeWhile fun w => !w.isAs).map (·.text) = items := by
        split at h
        · exact absurd h (by simp)
        · split at h
          · cases h
            rfl
          · exact absurd h (by simp)
        · exact absurd h (by simp)
      rw [← hitems]
      exact fun hnil => hfront (List.map_eq_nil_iff.1 hnil)

/-- A line that is neither blank nor a comment has a keyword. -/
theorem items_ne_nil_of_read {raw : String} {number : LineNumber} {line : Line}
    (hblank : Text.isBlankText raw = false) (h : read raw number = .ok line)
    (hcomment : line.isComment = false) : line.items ≠ [] := by
  unfold read at h
  split at h
  · cases h
    exact absurd hcomment (by simp [isComment])
  · split at h
    · exact absurd h (by simp)
    · split at h
      · exact absurd h (by simp)
      · next items output hbinding =>
        cases h
        exact items_ne_nil_of_splitBinding (words_ne_nil hblank) hbinding

/-! ### JSON form -/

def toJson (l : Line) : Json :=
  .obj [
    ("raw", .str l.raw),
    ("line_number", Json.ofUInt64 l.number),
    ("is_comment", .bool l.isComment),
    ("items", .arr (l.items.map .str)),
    ("output_var", match l.output with
      | none => .null
      | some name => .str name)]

end Line

end KeywordRunner.Script
