import KeywordRunner.Proofs.Script.Loading
import KeywordRunner.Proofs.Script.Trace
import KeywordRunner.Script.Batch

/-!
# Proofs.Script.Turns — a batch, case by case

As in `Visits`, keywords act on a world of any type `σ`, and a listener keeps a log. All that a case
is to a batch is what it does when it is run alone, from the world that the cases before it left.

* **`Case.turn`** — a case run alone.
* **`turns`** — the turns of a batch, each from the world that the one before left.
* **`recordBatch_eq_turns`** — a batch is its turns: they determine the log, the report and the
  world.
-/

namespace KeywordRunner.Script

variable {σ : Type}

/-! ## One case -/

/-- One case of a batch: the world that it found, what came of it, what the listener was told, and
the world that it left. -/
structure Turn (σ : Type) where
  subject : Case
  found : σ
  outcome : CaseOutcome
  events : List Event
  left : σ

/-- What is reported about the case. -/
def Turn.result (t : Turn σ) : CaseResult := ⟨t.subject.id, t.subject.name, t.outcome⟩

namespace Case

/-- A case run alone, from some world. -/
def turn (registry : Registry (StateM σ)) (deviceId : String) (notify : Event → σ → σ) (c : Case)
    (w : σ) : Turn σ :=
  let run := ((c.run registry deviceId (recorder notify)).run []).run w
  ⟨c, w, run.1.1, run.1.2, run.2⟩

/-- What the listener is told about a case that cannot be loaded. -/
def refusal (deviceId : String) (c : Case) (fault : LoadFault) : List Event :=
  let event := fun kind => Event.plain kind deviceId c.id
  [event .caseStart, ((event .error).atLine fault.line).withMessage fault.message, event .caseEnd]

theorem load_result (registry : Registry (StateM σ)) (c : Case) :
    (c.load registry).2 = .ok () ∨ ∃ fault, (c.load registry).2 = .error fault := by
  cases (c.load registry).2 with
  | ok done => exact Or.inl rfl
  | error fault => exact Or.inr ⟨fault, rfl⟩

section

variable {registry : Registry (StateM σ)} {deviceId : String} {notify : Event → σ → σ} {c : Case}

/-- A case that can be loaded is run by the interpreter that loaded it. -/
theorem run_of_ok {n m : Type → Type} [Monad n] [Monad m] [MonadLiftT n m]
    {registry : Registry n} (h : (c.load registry).2 = .ok ()) (listen : Event → m Unit) :
    c.run registry deviceId listen
      = (do
          let (_, report) ← (c.load registry).1.execute deviceId listen
          pure (.executed report)) := by
  unfold Case.run
  split
  · next it hload => rw [hload]
  · next it fault hload =>
    rw [hload] at h
    exact absurd h (by simp)

/-- Of a case that cannot be loaded nothing is done but to tell the listener. -/
theorem run_of_error {n m : Type → Type} [Monad n] [Monad m] [MonadLiftT n m]
    {registry : Registry n} {fault : LoadFault} (h : (c.load registry).2 = .error fault)
    (listen : Event → m Unit) :
    c.run registry deviceId listen
      = (do
          listen (.plain .caseStart deviceId c.id)
          listen (((Event.plain .error deviceId c.id).atLine fault.line).withMessage fault.message)
          listen (.plain .caseEnd deviceId c.id)
          pure (.notLoaded fault)) := by
  unfold Case.run
  split
  · next it hload =>
    rw [hload] at h
    exact absurd h (by simp)
  · next it f hload =>
    rw [hload] at h
    cases h
    rfl

theorem turn_of_ok (h : (c.load registry).2 = .ok ()) (w : σ) :
    let run := (c.load registry).1.record deviceId notify w
    c.turn registry deviceId notify w = ⟨c, w, .executed run.1.1.2, run.1.2, run.2⟩ := by
  unfold turn
  rw [run_of_ok h]
  rfl

theorem turn_of_error {fault : LoadFault} (h : (c.load registry).2 = .error fault) (w : σ) :
    c.turn registry deviceId notify w
      = ⟨c, w, .notLoaded fault, c.refusal deviceId fault,
          (c.refusal deviceId fault).foldl (fun w e => notify e w) w⟩ := by
  unfold turn
  rw [run_of_error h]
  rfl

/-- The outcome tells whether the case was loaded, and if not, why. -/
theorem outcome_turn_iff (w : σ) (fault : LoadFault) :
    (c.turn registry deviceId notify w).outcome = .notLoaded fault
      ↔ (c.load registry).2 = .error fault := by
  rcases c.load_result registry with hok | ⟨fault', hfault⟩
  · rw [turn_of_ok hok, hok]
    simp
  · rw [turn_of_error hfault, hfault]
    simp

end

end Case

/-! ## A log that has been begun -/

section

variable (deviceId : String) (notify : Event → σ → σ)

/-- A run adds its events to the log, whatever that holds. -/
theorem Interpreter.execute_log (it : Interpreter (StateM σ)) (log : List Event) (w : σ) :
    let run := it.record deviceId notify w
    it.execute deviceId (recorder notify) log w = ((run.1.1, log ++ run.1.2), run.2) := by
  intro run
  let event := fun kind => Event.plain kind deviceId it.caseId
  have hopen : it.execute deviceId (recorder notify) log w
      = (let lines := runLines (recorder notify) it.registry event it.lines it.vars .empty
          (log ++ [event .caseStart]) (notify (event .caseStart) w)
        ((({ it with vars := lines.1.1.1 }, lines.1.1.2), lines.1.2 ++ [event .caseEnd]),
          notify (event .caseEnd) lines.2)) := rfl
  have hrun := record_eq_walk it deviceId notify w
  have hadd : run = it.record deviceId notify w := rfl
  rw [hopen, runLines_eq_walk, hadd, hrun]
  simp [Report.empty, event]

/-- So does a case. -/
theorem Case.run_log (registry : Registry (StateM σ)) (c : Case) (log : List Event) (w : σ) :
    let turn := c.turn registry deviceId notify w
    c.run registry deviceId (recorder notify) log w
      = ((turn.outcome, log ++ turn.events), turn.left) := by
  intro turn
  have hturn : turn = c.turn registry deviceId notify w := rfl
  rcases c.load_result registry with hok | ⟨fault, hfault⟩
  · have hopen : c.run registry deviceId (recorder notify) log w
        = (let run := (c.load registry).1.execute deviceId (recorder notify) log w
          ((.executed run.1.1.2, run.1.2), run.2)) := by
      rw [run_of_ok hok]
      rfl
    rw [hopen, Interpreter.execute_log, hturn, turn_of_ok hok]
  · -- the three events are put behind the log one by one
    have hopen : c.run registry deviceId (recorder notify) log w
        = ((.notLoaded fault, (c.refusal deviceId fault).foldl (fun log e => log ++ [e]) log),
            (c.refusal deviceId fault).foldl (fun w e => notify e w) w) := by
      rw [run_of_error hfault]
      rfl
    rw [hopen, hturn, turn_of_error hfault]
    simp [refusal]

end

/-! ## All cases -/

section

variable (registry : Registry (StateM σ)) (deviceId : String) (notify : Event → σ → σ)

/-- The turns of a batch. -/
def turns : List Case → σ → List (Turn σ)
  | [], _ => []
  | c :: cs, w =>
    let first := c.turn registry deviceId notify w
    first :: turns cs first.left

/-- The world that cases leave, one after the other. -/
def leave (cases : List Case) (w : σ) : σ :=
  cases.foldl (fun w c => (c.turn registry deviceId notify w).left) w

/-- The turns and the run of the cases take the same steps, whatever has been logged before. -/
theorem runCases_eq_turns (cases : List Case) (log : List Event) (w : σ) :
    let taken := turns registry deviceId notify cases w
    runCases registry deviceId (recorder notify) cases log w
      = ((taken.map (·.result), log ++ taken.flatMap (·.events)),
          leave registry deviceId notify cases w) := by
  induction cases generalizing log w with
  | nil =>
    dsimp only [turns, leave]
    rw [List.flatMap_nil, List.append_nil]
    rfl
  | cons c cs ih =>
    have hopen : runCases registry deviceId (recorder notify) (c :: cs) log w
        = (let first := c.run registry deviceId (recorder notify) log w
          let rest := runCases registry deviceId (recorder notify) cs first.1.2 first.2
          ((⟨c.id, c.name, first.1.1⟩ :: rest.1.1, rest.1.2), rest.2)) := rfl
    rw [hopen, Case.run_log]
    dsimp only
    rw [ih]
    simp only [turns, leave, List.map_cons, List.flatMap_cons, List.foldl_cons, List.append_assoc]
    rfl

/-- A batch with a listener that keeps a log. -/
def recordBatch (cases : List Case) (w : σ) : (BatchReport × List Event) × σ :=
  ((runBatch registry deviceId (recorder notify) cases).run []).run w

/-- A whole batch: what it reports, logs and leaves behind is determined by its turns. -/
theorem recordBatch_eq_turns (cases : List Case) (w : σ) :
    let event := fun kind => Event.plain kind deviceId 0
    let first := notify (event .testStart) w
    let taken := turns registry deviceId notify cases first
    recordBatch registry deviceId notify cases w
      = ((⟨taken.map (·.result)⟩,
            [event .testStart] ++ taken.flatMap (·.events) ++ [event .testEnd]),
          notify (event .testEnd) (leave registry deviceId notify cases first)) := by
  intro event first taken
  -- the two events about the batch stand around those about its cases
  have hopen : recordBatch registry deviceId notify cases w
      = (let run := runCases registry deviceId (recorder notify) cases [event .testStart] first
        ((⟨run.1.1⟩, run.1.2 ++ [event .testEnd]), notify (event .testEnd) run.2)) := rfl
  rw [hopen, runCases_eq_turns]

/-! ## The turns of a batch -/

theorem turns_subjects (cases : List Case) (w : σ) :
    (turns registry deviceId notify cases w).map (·.subject) = cases := by
  induction cases generalizing w with
  | nil => rfl
  | cons c cs ih =>
    rw [turns, List.map_cons, ih]
    rfl

/-- Each turn is that of its case run alone, from the world that the cases before it left. -/
theorem getElem?_turns (cases : List Case) (w : σ) (i : Nat) :
    (turns registry deviceId notify cases w)[i]?
      = cases[i]?.map fun c =>
          c.turn registry deviceId notify (leave registry deviceId notify (cases.take i) w) := by
  induction cases generalizing w i with
  | nil => rfl
  | cons c cs ih =>
    cases i with
    | zero => rfl
    | succ i =>
      rw [turns, List.getElem?_cons_succ, ih]
      rfl

theorem eq_turn_of_mem {cases : List Case} {w : σ} {t : Turn σ}
    (ht : t ∈ turns registry deviceId notify cases w) :
    t = t.subject.turn registry deviceId notify t.found := by
  obtain ⟨i, hi⟩ := List.mem_iff_getElem?.1 ht
  rw [getElem?_turns] at hi
  obtain ⟨c, _, rfl⟩ := Option.map_eq_some_iff.1 hi
  rfl

end

end KeywordRunner.Script
