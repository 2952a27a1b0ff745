import KeywordRunner.Proofs.Text.Lines
import Mathlib.Logic.Relation

/-!
# Proofs.Text.Returns — carriage returns at the ends of lines

A line may end in any number of carriage returns before its newline. The first of them is dropped
with the line ending, the others when the line is read; at the end of a text without a newline all
of them are left to the reader. Either way nothing of them remains.

* **`AddsReturns`** — a text with carriage returns put in where its lines end.
* **`bareLines_of_addsReturns`** — that changes no line, and makes none.
-/

namespace KeywordRunner.Text

/-- A text, and the same with one carriage return more where a line ends: directly before a
newline, or behind a last line that is not empty and has no newline. -/
inductive AddsReturn : String → String → Prop where
  | beforeNewline (front back : String) :
      AddsReturn (front ++ "\n" ++ back) (front ++ "\r" ++ "\n" ++ back)
  | atEnd (front : String) {c : Char} (hc : c ≠ '\n') :
      AddsReturn (front.push c) (front.push c ++ "\r")

/-- A text, and the same with any number of carriage returns more where lines end. -/
def AddsReturns : String → String → Prop := Relation.ReflTransGen AddsReturn

/-- The lines of a text without the carriage returns at their ends. -/
def bareLines (s : String) : List String := (lines s).map dropReturns

/-! ## Pieces that become longer -/

/-- One more character at the end makes the last piece longer. -/
theorem splitOn_concat {separator c : Char} (hc : c ≠ separator) (cs : List Char) :
    ∃ ps q, splitOn separator cs = ps ++ [q] ∧
      splitOn separator (cs ++ [c]) = ps ++ [q ++ [c]] := by
  induction cs with
  | nil => exact ⟨[], [], rfl, splitOn_of_ne hc rfl⟩
  | cons d cs ih =>
    obtain ⟨ps, q, hbefore, hafter⟩ := ih
    rw [List.cons_append]
    by_cases hd : d = separator
    · refine ⟨[] :: ps, q, ?_, ?_⟩
      · rw [hd, splitOn_of_eq, hbefore, List.cons_append]
      · rw [hd, splitOn_of_eq, hafter, List.cons_append]
    · -- `d` belongs to the first piece, which is the last one when there is no separator
      cases ps with
      | nil => exact ⟨[], d :: q, splitOn_of_ne hd hbefore, splitOn_of_ne hd hafter⟩
      | cons p ps => exact ⟨(d :: p) :: ps, q, splitOn_of_ne hd hbefore, splitOn_of_ne hd hafter⟩

/-- A last piece that is not empty is a line. -/
theorem linesOfPieces_concat (ps : List (List Char)) {q : List Char} (hq : q ≠ []) :
    linesOfPieces (ps ++ [q]) = ps.map dropReturn ++ [q] := by
  rw [linesOfPieces_append ps (List.cons_ne_nil q []), linesOfPieces, if_neg hq]

/-! ## What is left of a line -/

/-- Without the carriage returns at the end. -/
def dropReturnsChars (cs : List Char) : List Char := dropEnd (· == '\r') cs

theorem dropReturns_ofList (cs : List Char) :
    dropReturns (String.ofList cs) = String.ofList (dropReturnsChars cs) := by
  rw [dropReturns, String.toList_ofList, dropReturnsChars]

theorem dropReturnsChars_concat (cs : List Char) :
    dropReturnsChars (cs ++ ['\r']) = dropReturnsChars cs :=
  dropEnd_append_of_all _ cs ['\r'] rfl

/-- Whether one of them has been dropped before makes no difference. -/
theorem dropReturnsChars_dropReturn (cs : List Char) :
    dropReturnsChars (dropReturn cs) = dropReturnsChars cs := by
  unfold dropReturn
  split
  · next rest hrest =>
    have hcs : cs = rest.reverse ++ ['\r'] := by
      rw [← List.reverse_reverse cs, hrest, List.reverse_cons]
    rw [hcs, dropReturnsChars_concat]
  · rfl

theorem bareLines_eq (s : String) :
    bareLines s = (linesOfPieces (splitOn '\n' s.toList)).map fun l =>
      String.ofList (dropReturnsChars l) := by
  rw [bareLines, lines, List.map_map]
  exact List.map_congr_left fun l _ => dropReturns_ofList l

/-- What a line is without its carriage returns has none at its end. -/
theorem getLast?_dropReturns (s : String) : (dropReturns s).toList.getLast? ≠ some '\r' := by
  rw [dropReturns, String.toList_ofList, dropEnd_eq, List.getLast?_reverse]
  intro hlast
  exact absurd (List.head?_dropWhile_not (· == '\r') s.toList.reverse) (by simp [hlast])

/-! ## One carriage return more -/

theorem bareLines_append_newline (front back : String) :
    bareLines (front ++ "\n" ++ back) = bareLines (front ++ "\n") ++ bareLines back := by
  rw [bareLines, lines_append_newline, List.map_append]
  rfl

/-- Every piece before a newline is a line. -/
theorem bareLines_ended (front : String) :
    bareLines (front ++ "\n")
      = (splitOn '\n' front.toList).map fun l => String.ofList (dropReturnsChars l) := by
  have hpieces : splitOn '\n' (front ++ "\n").toList = splitOn '\n' front.toList ++ [[]] := by
    rw [String.toList_append]
    exact splitOn_append '\n' front.toList []
  rw [bareLines_eq, hpieces, linesOfPieces_append _ (List.cons_ne_nil [] []), linesOfPieces,
    if_pos rfl, List.append_nil, List.map_map]
  refine List.map_congr_left fun l _ => ?_
  rw [Function.comp_apply, dropReturnsChars_dropReturn]

/-- A carriage return before a newline is dropped with the line ending or with the others. -/
theorem bareLines_return_newline (front : String) :
    bareLines (front ++ "\r" ++ "\n") = bareLines (front ++ "\n") := by
  obtain ⟨ps, q, hbefore, hafter⟩ :=
    splitOn_concat (show '\r' ≠ '\n' by decide) front.toList
  have hreturn : (front ++ "\r").toList = front.toList ++ ['\r'] := String.toList_append
  rw [bareLines_ended, bareLines_ended, hreturn, hbefore, hafter, List.map_append, List.map_append,
    List.map_singleton, List.map_singleton, dropReturnsChars_concat]

/-- A carriage return behind an open line that is not empty is part of that line. -/
theorem bareLines_return_atEnd (front : String) {c : Char} (hc : c ≠ '\n') :
    bareLines (front.push c ++ "\r") = bareLines (front.push c) := by
  obtain ⟨ps, q, _, hopen⟩ := splitOn_concat hc front.toList
  obtain ⟨ps', q', hbefore, hafter⟩ :=
    splitOn_concat (show '\r' ≠ '\n' by decide) (front.toList ++ [c])
  obtain ⟨rfl, hlast⟩ := List.append_inj' (hbefore.symm.trans hopen) rfl
  have hq' : q' = q ++ [c] := (List.cons.inj hlast).1
  have hne : q' ≠ [] := hq' ▸ List.append_ne_nil_of_right_ne_nil q (List.cons_ne_nil c [])
  have hpush : (front.push c).toList = front.toList ++ [c] := String.toList_push c
  have hreturn : (front.push c ++ "\r").toList = front.toList ++ [c] ++ ['\r'] := by
    rw [String.toList_append, hpush]
    rfl
  rw [bareLines_eq, bareLines_eq, hreturn, hpush, hbefore, hafter, linesOfPieces_concat _ hne,
    linesOfPieces_concat _ (List.append_ne_nil_of_left_ne_nil hne _), List.map_append,
    List.map_append, List.map_singleton, List.map_singleton, dropReturnsChars_concat]

theorem bareLines_of_addsReturn {t u : String} (h : AddsReturn t u) :
    bareLines u = bareLines t := by
  cases h with
  | beforeNewline front back =>
    rw [bareLines_append_newline, bareLines_append_newline, bareLines_return_newline]
  | atEnd front hc => exact bareLines_return_atEnd front hc

/-- **Carriage returns where lines end change no line**, however many there are. -/
theorem bareLines_of_addsReturns {t u : String} (h : AddsReturns t u) :
    bareLines u = bareLines t := by
  induction h with
  | refl => rfl
  | tail _ hlast ih => rw [bareLines_of_addsReturn hlast, ih]

end KeywordRunner.Text
