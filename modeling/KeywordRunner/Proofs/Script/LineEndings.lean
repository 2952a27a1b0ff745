import KeywordRunner.Proofs.Script.Pieces
import KeywordRunner.Proofs.Text.Returns

/-!
# Proofs.Script.LineEndings — scripts with other line endings

What loading makes of a line depends on the line without the carriage returns at its end, so a
script may have any number of them before each newline, and behind a last line without one. Behind
the last newline it is different: there a carriage return is a line of its own, and takes a number.

* **`load_congr`** — a script counts as its lines without the carriage returns at their ends.
* **`load_ignores_line_endings`** — texts that differ in carriage returns where lines end are loaded
  alike, and none of these is left in a loaded line.
-/

namespace KeywordRunner.Script

/-- The lines of a text are kept without the carriage returns at their ends. -/
theorem Line.raw_of_mem_ofTexts {count : LineNumber} {texts : List String} {line : Line}
    (h : line ∈ ofTexts count texts) : ∃ text ∈ texts, line.raw = Text.dropReturns text := by
  induction texts generalizing count with
  | nil => exact absurd h List.not_mem_nil
  | cons text texts ih =>
    rw [ofTexts_cons] at h
    rcases List.mem_append.1 h with hfirst | hlater
    · have hread := read_of_at? (Option.mem_toList.1 hfirst)
      exact ⟨text, List.mem_cons_self, (raw_number_of_read hread).1⟩
    · obtain ⟨text', hmem, hraw⟩ := ih hlater
      exact ⟨text', List.mem_cons_of_mem text hmem, hraw⟩

namespace Interpreter

variable {n : Type → Type}

/-! ## What loading depends on -/

theorem loadLine_congr (it : Interpreter n) {text text' : String}
    (h : Text.dropReturns text = Text.dropReturns text') (number : LineNumber) :
    it.loadLine text number = it.loadLine text' number := by
  unfold loadLine
  rw [h]

/-- Loading depends on the lines without the carriage returns at their ends. -/
theorem loadLines_congr (it : Interpreter n) {texts texts' : List String}
    (h : texts.map Text.dropReturns = texts'.map Text.dropReturns) :
    it.loadLines texts = it.loadLines texts' := by
  induction texts generalizing it texts' with
  | nil => rw [List.map_eq_nil_iff.1 h.symm]
  | cons text texts ih =>
    obtain ⟨text', later, rfl, hfirst, hlater⟩ := List.map_eq_cons_iff.1 h.symm
    rw [loadLines_cons, loadLines_cons, loadLine_congr it hfirst.symm]
    cases it.loadLine text' (it.lineCount + 1) with
    | mk it₁ result =>
      cases result with
      | error fault => rfl
      | ok loaded? => exact ih it₁ hlater.symm

/-- A script counts as its lines without the carriage returns at their ends. -/
theorem load_congr (it : Interpreter n) {t u : String} (h : Text.bareLines t = Text.bareLines u) :
    it.load t = it.load u := by
  unfold load
  rw [loadLines_congr it h]

/-! ## A carriage return behind the last newline -/

theorem loadLine_return (it : Interpreter n) (number : LineNumber) :
    it.loadLine "\r" number = ({ it with lineCount := max it.lineCount number }, .ok none) := rfl

/-- Behind the last newline a carriage return is one blank line more. -/
theorem load_append_return (it : Interpreter n) {t : String}
    (ht : t = "" ∨ ∃ front, t = front ++ "\n") :
    (it.load (t ++ "\r")).2 = (it.load t).2 ∧
      ((it.load t).2 = .ok () →
        (it.load (t ++ "\r")).1 = { (it.load t).1 with
          lineCount := LineNumber.advance (it.load t).1.lineCount 1 }) := by
  have hlines : Text.lines (t ++ "\r") = Text.lines t ++ ["\r"] :=
    Text.lines_append_of_ended ht "\r"
  have hreturn (it : Interpreter n) : it.loadLines ["\r"]
      = ({ it with lineCount := LineNumber.advance it.lineCount 1 }, .ok ()) := by
    rw [loadLines_cons, loadLine_return, LineNumber.max_add_one]
    rfl
  constructor
  · rw [load_answer, load_answer, hlines, loadLines_append]
    cases it.loadLines (Text.lines t) with
    | mk it₁ result =>
      cases result with
      | error fault => rfl
      | ok done =>
        dsimp only
        rw [hreturn]
  · intro hok
    have hloaded : it.loadLines (Text.lines (t ++ "\r"))
        = ({ (it.load t).1 with
            lineCount := LineNumber.advance (it.load t).1.lineCount 1 }, .ok ()) := by
      rw [hlines, loadLines_append, load_eq_of_ok hok]
      exact hreturn (it.load t).1
    rw [load, hloaded]

/-- **Line endings do not matter.** A text and the same text with any number of carriage returns
before newlines, or behind a last line that is not empty and has no newline, are loaded alike: into
the same interpreter, or with the same fault. No line that is loaded ends in a carriage return.
Where no line is open, at the beginning or behind the last newline, a carriage return is a blank
line, and changes nothing but the counter. -/
theorem load_ignores_line_endings (it : Interpreter n) :
    (∀ t u, Text.AddsReturns t u → it.load u = it.load t) ∧
    (∀ t, (it.load t).2 = .ok () →
      ∃ new, (it.load t).1.lines = it.lines ++ new ∧
        ∀ line ∈ new, line.raw.toList.getLast? ≠ some '\r') ∧
    ∀ t, (t = "" ∨ ∃ front, t = front ++ "\n") →
      (it.load (t ++ "\r")).2 = (it.load t).2 ∧
      ((it.load t).2 = .ok () →
        (it.load (t ++ "\r")).1 = { (it.load t).1 with
          lineCount := LineNumber.advance (it.load t).1.lineCount 1 }) := by
  refine ⟨fun t u h => load_congr it (Text.bareLines_of_addsReturns h), fun t hok => ?_,
    fun t ht => load_append_return it ht⟩
  obtain ⟨hext, _⟩ := loadLines_extends (load_eq_of_ok hok)
  refine ⟨_, hext.lines, fun line hline => ?_⟩
  obtain ⟨text, _, hraw⟩ := Line.raw_of_mem_ofTexts hline
  rw [hraw]
  exact Text.getLast?_dropReturns text

/-- Two carriage returns before a newline, one on an empty line, and one behind a last line that
ends in a quote. -/
theorem load_ignores_line_endings_mixed :
    let it : Interpreter (StateM Unit) := withRegistry .new
    let t := "check a a as v\n\ncheck $v \"a b\""
    let u := "check a a as v\r\r\n\r\ncheck $v \"a b\"\r"
    Text.AddsReturns t u ∧ it.load u = it.load t ∧
      (it.load u).2 = .ok () ∧
      (it.load u).1.lines.map (fun l => (l.raw, l.number, l.output))
        = [("check a a as v", 1, some "v"), ("check $v \"a b\"", 3, none)] ∧
      (∃ new, (it.load u).1.lines = it.lines ++ new ∧
        ∀ line ∈ new, line.raw.toList.getLast? ≠ some '\r') ∧
      (it.load (("check a a as v" ++ "\n") ++ "\r")).1.lineCount = 2 := by
  have hadds : Text.AddsReturns "check a a as v\n\ncheck $v \"a b\""
      "check a a as v\r\r\n\r\ncheck $v \"a b\"\r" := by
    have hfirst : Text.AddsReturn "check a a as v\n\ncheck $v \"a b\""
        "check a a as v\r\n\ncheck $v \"a b\"" :=
      .beforeNewline "check a a as v" "\ncheck $v \"a b\""
    have hsecond : Text.AddsReturn "check a a as v\r\n\ncheck $v \"a b\""
        "check a a as v\r\r\n\ncheck $v \"a b\"" :=
      .beforeNewline "check a a as v\r" "\ncheck $v \"a b\""
    have hempty : Text.AddsReturn "check a a as v\r\r\n\ncheck $v \"a b\""
        "check a a as v\r\r\n\r\ncheck $v \"a b\"" :=
      .beforeNewline "check a a as v\r\r\n" "check $v \"a b\""
    have hlast : Text.AddsReturn "check a a as v\r\r\n\r\ncheck $v \"a b\""
        "check a a as v\r\r\n\r\ncheck $v \"a b\"\r" :=
      .atEnd "check a a as v\r\r\n\r\ncheck $v \"a b" (show '"' ≠ '\n' by decide)
    exact (((Relation.ReflTransGen.single hfirst).tail hsecond).tail hempty).tail hlast
  obtain ⟨hsame, hbare, hbehind⟩ := load_ignores_line_endings
    (withRegistry .new : Interpreter (StateM Unit))
  refine ⟨hadds, hsame _ _ hadds, by rfl, by rfl, hbare _ (by rfl), ?_⟩
  rw [(hbehind ("check a a as v" ++ "\n") (Or.inr ⟨"check a a as v", rfl⟩)).2 (by rfl)]
  rfl

end Interpreter

end KeywordRunner.Script
