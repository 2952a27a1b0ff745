import KeywordRunner.Proofs.Script.Scope
import KeywordRunner.Proofs.Text.Lines

/-!
# Proofs.Script.Pieces — scripts that are loaded in pieces

A script may come in one text or in several, as long as no piece ends inside a line: numbering,
variables and imports go on where the last piece left them, and a piece that cannot be loaded
leaves them there.

* **`loadLines_append`** — lines are loaded one after the other, however they are grouped.
* **`Interpreter.Numbered`** — the invariant: the counter is at least the number of every line.
* **`ofTexts_increasing`** — the lines of one text have increasing numbers, all past the counter.
* **`load_in_pieces`** — two pieces are loaded as their concatenation is, and the numbers of loaded
  lines increase whatever has been done to the interpreter.
-/

namespace KeywordRunner.Script

/-! ## Numbers of the lines of a text -/

namespace LineNumber

theorem le_max_left (a b : LineNumber) : a ≤ max a b := by
  show a ≤ if a ≤ b then b else a
  split
  · next h => exact h
  · exact UInt64.le_refl a

theorem le_max_right (a b : LineNumber) : b ≤ max a b := by
  show b ≤ if a ≤ b then b else a
  split
  · exact UInt64.le_refl b
  · next h => exact UInt64.le_of_lt (UInt64.not_le.1 h)

end LineNumber

namespace Line

/-- What a line says has been read from it, under the number of its place. -/
theorem read_of_at? {count : LineNumber} {k : Nat} {text : String} {line : Line}
    (h : at? count k text = some line) :
    read (Text.dropReturns text) (LineNumber.after count k) = .ok line := by
  unfold at? at h
  split at h
  · exact absurd h (by simp)
  · cases hread : read (Text.dropReturns text) (LineNumber.after count k) with
    | error fault =>
      rw [hread] at h
      exact absurd h (by simp [Except.toOption])
    | ok said =>
      rw [hread] at h
      exact congrArg Except.ok (Option.some.inj h)

theorem number_of_at? {count : LineNumber} {k : Nat} {text : String} {line : Line}
    (h : at? count k text = some line) : line.number = LineNumber.after count k :=
  (raw_number_of_read (read_of_at? h)).2

/-- The lines of a text are numbered past the counter, each more than the lines before it, as long
as there are numbers for all of them. -/
theorem ofTexts_increasing {count : LineNumber} {texts : List String}
    (hroom : count.toNat + texts.length < UInt64.size) :
    (ofTexts count texts).Pairwise (fun l l' => l.number < l'.number) ∧
      ∀ line ∈ ofTexts count texts, count < line.number := by
  induction texts generalizing count with
  | nil => exact ⟨List.Pairwise.nil, fun line hline => absurd hline List.not_mem_nil⟩
  | cons text texts ih =>
    rw [List.length_cons] at hroom
    have hnext : (LineNumber.advance count 1).toNat = count.toNat + 1 := by
      rw [LineNumber.toNat_advance]
      omega
    have hrest := @ih (LineNumber.advance count 1) (by omega)
    -- the first line has just the number that the counter comes to
    have hfirst : ∀ line ∈ (at? count 1 text).toList,
        line.number = LineNumber.advance count 1 := by
      intro line hline
      apply UInt64.toNat_inj.1
      rw [number_of_at? (Option.mem_toList.1 hline), LineNumber.toNat_after (by omega), hnext]
    have hpast : count < LineNumber.advance count 1 := by
      rw [UInt64.lt_iff_toNat_lt]
      omega
    rw [ofTexts_cons]
    refine ⟨List.pairwise_append.2 ⟨?_, hrest.1, fun l hl l' hl' => ?_⟩, fun line hline => ?_⟩
    · cases at? count 1 text with
      | none => exact List.Pairwise.nil
      | some line => exact List.pairwise_singleton _ line
    · rw [hfirst l hl]
      exact hrest.2 l' hl'
    · rcases List.mem_append.1 hline with hline | hline
      · rw [hfirst line hline]
        exact hpast
      · exact UInt64.lt_trans hpast (hrest.2 line hline)

end Line

namespace Interpreter

variable {n : Type → Type} {it : Interpreter n}

/-! ## Pieces -/

/-- Lines are loaded one after the other: the later ones find what the earlier ones left, if all
of those could be loaded. -/
theorem loadLines_append (it : Interpreter n) (xs ys : List String) :
    it.loadLines (xs ++ ys)
      = match it.loadLines xs with
        | (it, .error fault) => (it, .error fault)
        | (it, .ok ()) => it.loadLines ys := by
  induction xs generalizing it with
  | nil => rfl
  | cons x xs ih =>
    rw [List.cons_append, loadLines_cons, loadLines_cons]
    cases it.loadLine x (it.lineCount + 1) with
    | mk it₁ result =>
      cases result with
      | error fault => rfl
      | ok loaded? => exact ih it₁

/-- What is taken back after a fault does not change the answer. -/
theorem load_answer (it : Interpreter n) (text : String) :
    (it.load text).2 = (it.loadLines (Text.lines text)).2 := by
  unfold load
  cases it.loadLines (Text.lines text) with
  | mk loaded result => cases result <;> rfl

/-- A piece that has been loaded counts as the beginning of the text. -/
theorem load_append_of_ok {a b : String}
    (hlines : Text.lines (a ++ b) = Text.lines a ++ Text.lines b) (ha : (it.load a).2 = .ok ()) :
    (it.load (a ++ b)).2 = ((it.load a).1.load b).2 ∧
      ((it.load (a ++ b)).2 = .ok () → (it.load (a ++ b)).1 = ((it.load a).1.load b).1) := by
  have hloaded : it.loadLines (Text.lines (a ++ b))
      = (it.load a).1.loadLines (Text.lines b) := by
    rw [hlines, loadLines_append, load_eq_of_ok ha]
  have hanswer : (it.load (a ++ b)).2 = ((it.load a).1.load b).2 := by
    rw [load_answer, load_answer, hloaded]
  refine ⟨hanswer, fun hok => ?_⟩
  -- the same lines are loaded into the same interpreter, and nothing is taken back
  have hwhole := load_eq_of_ok hok
  rw [hanswer] at hok
  rw [hloaded, load_eq_of_ok hok] at hwhole
  exact (Prod.mk.inj hwhole).1.symm

theorem load_append_of_error {a b : String}
    (hlines : Text.lines (a ++ b) = Text.lines a ++ Text.lines b) {fault : LoadFault}
    (ha : (it.load a).2 = .error fault) : (it.load (a ++ b)).2 = .error fault := by
  obtain ⟨_, partway, hloaded⟩ := load_error ha
  rw [load_answer, hlines, loadLines_append, hloaded]

/-! ## Numbers of all loaded lines -/

/-- No loaded line has a number past the counter. -/
def Numbered (it : Interpreter n) : Prop := ∀ line ∈ it.lines, line.number ≤ it.lineCount

theorem Numbered.of_same {it' : Interpreter n} (h : it.Numbered) (hlines : it'.lines = it.lines)
    (hcount : it.lineCount ≤ it'.lineCount) : it'.Numbered := by
  intro line hline
  rw [hlines] at hline
  exact UInt64.le_trans (h line hline) hcount

/-- Loading a line under any number, with any outcome: the counter goes up to that number before
anything else is done. -/
theorem Numbered.loadLine (h : it.Numbered) (text : String) (number : LineNumber) :
    (it.loadLine text number).1.Numbered := by
  have hcounted : Numbered { it with lineCount := max it.lineCount number } :=
    h.of_same rfl (LineNumber.le_max_left it.lineCount number)
  rcases loadLine_cases it text number with
    ⟨_, heq⟩ | ⟨fault, _, _, heq⟩ | ⟨line, it₁, _, hread, hacc, heq⟩
  · rw [heq]
    exact hcounted
  · rw [heq]
    exact hcounted
  · obtain ⟨hext, hcount⟩ := accept_extends hacc
    rw [heq]
    intro line' hline'
    rw [hext.lines] at hline'
    rw [hcount]
    rcases List.mem_append.1 hline' with hold | hnew
    · exact hcounted line' hold
    · rw [List.mem_singleton.1 hnew, (Line.raw_number_of_read hread).2]
      exact LineNumber.le_max_right it.lineCount number

theorem Numbered.loadLines (h : it.Numbered) (texts : List String) :
    (it.loadLines texts).1.Numbered := by
  induction texts generalizing it with
  | nil => exact h
  | cons text texts ih =>
    have hfirst := h.loadLine text (it.lineCount + 1)
    rw [loadLines_cons]
    cases hline : it.loadLine text (it.lineCount + 1) with
    | mk it₁ result =>
      rw [hline] at hfirst
      cases result with
      | error fault => exact hfirst
      | ok loaded? => exact ih hfirst

/-- Loading a text: lines and counter go up together, or are taken back together. -/
theorem Numbered.load (h : it.Numbered) (text : String) : (it.load text).1.Numbered := by
  cases hresult : (it.load text).2 with
  | error fault =>
    rw [(load_error hresult).1]
    exact h
  | ok done =>
    have hlines := h.loadLines (Text.lines text)
    rw [load_eq_of_ok hresult] at hlines
    exact hlines

variable {σ : Type}

/-- The step: no act leaves the counter behind a line. -/
theorem Numbered.apply {it : Interpreter (StateM σ)} (h : it.Numbered) (act : Act σ) :
    (act.apply it).Numbered := by
  cases act with
  | load text => exact h.load text
  | loadLine text number => exact h.loadLine text number
  | execute deviceId notify w =>
    show (it.record deviceId notify w).1.1.1.Numbered
    rw [record_eq_walk]
    exact h
  | register name keyword => exact h
  | addLibrary library => exact h
  | importLibrary name =>
    unfold Act.apply
    dsimp only
    split
    · exact h
    · exact h
  | setCaseId caseId => exact h
  | reset => exact fun line hline => absurd hline List.not_mem_nil

/-- The run: neither do any acts in any order. -/
theorem Numbered.foldl {it : Interpreter (StateM σ)} (h : it.Numbered) (acts : List (Act σ)) :
    (acts.foldl Act.apply it).Numbered := by
  induction acts generalizing it with
  | nil => exact h
  | cons act acts ih => exact ih (h.apply act)

/-- What a text adds to a numbered interpreter is numbered past all that was there. -/
theorem Numbered.increasing {it : Interpreter n} (h : it.Numbered) {text : String}
    (hok : (it.load text).2 = .ok ())
    (hroom : it.lineCount.toNat + (Text.lines text).length < UInt64.size) :
    ∃ new, (it.load text).1.lines = it.lines ++ new ∧
      new.Pairwise (fun l l' => l.number < l'.number) ∧
      ∀ old ∈ it.lines, ∀ line ∈ new, old.number < line.number := by
  obtain ⟨hext, _⟩ := loadLines_extends (load_eq_of_ok hok)
  obtain ⟨hincreasing, hpast⟩ := Line.ofTexts_increasing hroom
  exact ⟨_, hext.lines, hincreasing, fun old hold line hline =>
    UInt64.lt_of_le_of_lt (h old hold) (hpast line hline)⟩

/-- **Loading in pieces.** Where a piece leaves no line open, loading it and then the rest answers
as loading both at once does, with the same fault at the same line, and if all goes well it leaves
the same interpreter. Whatever has been done to an interpreter, among it texts and single lines
under any numbers, loaded or refused, the counter is at least the number of each of its lines. So
the lines of a text are numbered in increasing order, past all lines before them, as long as there
are numbers. -/
theorem load_in_pieces (it : Interpreter n) {a : String}
    (ha : a = "" ∨ ∃ front, a = front ++ "\n") (b : String) :
    ((it.load a).2 = .ok () →
      (it.load (a ++ b)).2 = ((it.load a).1.load b).2 ∧
      ((it.load (a ++ b)).2 = .ok () → (it.load (a ++ b)).1 = ((it.load a).1.load b).1)) ∧
    (∀ fault, (it.load a).2 = .error fault → (it.load (a ++ b)).2 = .error fault) ∧
    ∀ (registry : Registry (StateM σ)) (acts : List (Act σ)),
      let it := acts.foldl Act.apply (withRegistry registry)
      (∀ line ∈ it.lines, line.number ≤ it.lineCount) ∧
      ∀ text, (it.load text).2 = .ok () →
        it.lineCount.toNat + (Text.lines text).length < UInt64.size →
        ∃ new, (it.load text).1.lines = it.lines ++ new ∧
          new.Pairwise (fun l l' => l.number < l'.number) ∧
          ∀ old ∈ it.lines, ∀ line ∈ new, old.number < line.number := by
  have hlines := Text.lines_append_of_ended ha b
  refine ⟨load_append_of_ok hlines, fun fault => load_append_of_error hlines,
    fun registry acts => ?_⟩
  have hempty : (withRegistry registry).Numbered :=
    fun line hline => absurd hline List.not_mem_nil
  have hnumbered := hempty.foldl acts
  exact ⟨hnumbered, fun text hok hroom => hnumbered.increasing hok hroom⟩

/-- The second piece reads a name that the first one binds, and one that nothing binds. The blank
line between them has taken its number. -/
theorem load_in_pieces_over_two_texts :
    let it : Interpreter (StateM Unit) := withRegistry .new
    let a := "check a a as v\n\n"
    let b := "check $v $w"
    (∃ front, a = front ++ "\n") ∧ (it.load a).2 = .ok () ∧
      (it.load (a ++ b)).2 = ((it.load a).1.load b).2 ∧
      ((it.load a).1.load b).2 = .error ⟨3, .undefinedVariable "w"⟩ := by
  have hended : ∃ front, "check a a as v\n\n" = front ++ "\n" := ⟨"check a a as v\n", rfl⟩
  refine ⟨hended, by rfl, ?_, by rfl⟩
  exact ((@load_in_pieces (StateM Unit) Unit (withRegistry .new) _ (Or.inr hended) _).1 (by rfl)).1

end Interpreter

end KeywordRunner.Script
