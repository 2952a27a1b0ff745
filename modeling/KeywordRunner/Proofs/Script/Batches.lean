import KeywordRunner.Proofs.Script.Agreement
import KeywordRunner.Proofs.Script.Turns

/-!
# Proofs.Script.Batches — what a listener is told about a batch

Two parts of the program tell a listener about a case: the batch if the case cannot be loaded, and
its run if it can. Either way the listener and the report learn of the same failures.

* **`Case.Block`** — the two shapes that the events about a case can have.
* **`batch_trace`** — the log of a batch and its report, case by case.
-/

namespace KeywordRunner.Script

variable {σ : Type}

/-! ## Reports -/

namespace CaseResult

/-- The failures that are reported of a case, whether it was loaded or not. -/
def failures (r : CaseResult) : List LineFailure :=
  match r.outcome with
  | .notLoaded fault => [⟨fault.line, fault.message⟩]
  | .executed report => report.failures

/-- A case passes if there is nothing to report of it. -/
theorem passed_iff (r : CaseResult) : r.passed = true ↔ r.failures = [] := by
  obtain ⟨id, name, outcome⟩ := r
  cases outcome with
  | notLoaded fault => simp [passed, failures]
  | executed report => simp [passed, failures, Report.isSuccess, Report.failures]

end CaseResult

namespace BatchReport

theorem passed_add_failed (r : BatchReport) : r.passed + r.failed = r.cases.length :=
  Nat.add_sub_cancel' List.countP_le_length

theorem isSuccess_iff (r : BatchReport) :
    r.isSuccess = true ↔ ∀ result ∈ r.cases, result.failures = [] := by
  have hall : r.isSuccess = true ↔ r.passed = r.cases.length := by
    have hsum := r.passed_add_failed
    rw [isSuccess, beq_iff_eq]
    omega
  rw [hall, passed, List.countP_eq_length]
  exact forall₂_congr fun result _ => result.passed_iff

end BatchReport

/-! ## Blocks -/

/-- What an event says about a failure: the case, the line and the message. -/
def Event.failure (e : Event) : Nat × LineNumber × Option String := (e.caseId, e.line, e.message)

/-- Where all events are about one case, their failures are told apart by line and message. -/
theorem failures_of_tagged {id : Nat} {events : List Event} (h : ∀ e ∈ events, e.caseId = id) :
    (events.filter (·.isError)).map (·.failure)
      = ((events.filter (·.isError)).map fun e => (e.line, e.message)).map fun f => (id, f) := by
  rw [List.map_map]
  refine List.map_congr_left fun e he => ?_
  rw [Event.failure, h e (List.mem_filter.1 he).1]
  rfl

namespace Case

/-- What the listener is told about a case whose lines are visited. -/
def chronicle (deviceId : String) (c : Case) (visits : List (Visit σ)) : List Event :=
  let event := fun kind => Event.plain kind deviceId c.id
  [event .caseStart] ++ visits.flatMap (·.events event) ++ [event .caseEnd]

/-- The events about a case, as its script has them. If a new interpreter over the registry refuses
the script, the fault is told between the start of the case and its end; if it loads the script,
each line that says something has its own group of events there. -/
inductive Block (registry : Registry (StateM σ)) (deviceId : String) (c : Case) :
    List Event → Prop where
  | notLoaded {fault : LoadFault}
      (hload : ((Interpreter.withRegistry registry).load c.script).2 = .error fault) :
      Block registry deviceId c (c.refusal deviceId fault)
  | executed {visits : List (Visit σ)}
      (hload : ((Interpreter.withRegistry registry).load c.script).2 = .ok ())
      (hlines : visits.map (·.line) = Line.ofTexts 0 (Text.lines c.script)) :
      Block registry deviceId c (c.chronicle deviceId visits)

/-- Whatever the case, the events about it bear its tags. -/
theorem Block.tagged {registry : Registry (StateM σ)} {deviceId : String} {c : Case}
    {events : List Event} (h : c.Block registry deviceId events) :
    ∀ e ∈ events, e.deviceId = deviceId ∧ e.caseId = c.id := by
  cases h with
  | notLoaded hload =>
    intro e he
    simp only [refusal, List.mem_cons, List.not_mem_nil, or_false] at he
    rcases he with rfl | rfl | rfl <;> exact ⟨rfl, rfl⟩
  | executed hload hlines => exact Interpreter.log_tagged _

section

variable (registry : Registry (StateM σ)) (deviceId : String) (notify : Event → σ → σ) (c : Case)
  (w : σ)

theorem load_caseId (h : (c.load registry).2 = .ok ()) : (c.load registry).1.caseId = c.id :=
  (Interpreter.loadLines_extends (Interpreter.load_eq_of_ok h)).1.caseId

/-- All that is told and reported about a case that was loaded comes from visits of its lines. -/
theorem turn_visits (h : (c.load registry).2 = .ok ()) :
    ∃ visits : List (Visit σ), visits.map (·.line) = Line.ofTexts 0 (Text.lines c.script) ∧
      (c.turn registry deviceId notify w).events = c.chronicle deviceId visits ∧
      (c.turn registry deviceId notify w).outcome
        = .executed ⟨visits.length, (visits.filterMap (·.failure?)).reverse⟩ := by
  have hrecord := Interpreter.record_eq_walk (c.load registry).1 deviceId notify w
  rw [load_caseId registry c h] at hrecord
  rw [turn_of_ok h, hrecord, ← lines_of_load h]
  exact ⟨_, Interpreter.walk_lines notify _ _ _ _ _, rfl, rfl⟩

theorem block_turn : c.Block registry deviceId (c.turn registry deviceId notify w).events := by
  rcases c.load_result registry with hok | ⟨fault, hfault⟩
  · obtain ⟨visits, hlines, hevents, _⟩ := c.turn_visits registry deviceId notify w hok
    rw [hevents]
    exact .executed (c.load_eq_script registry ▸ hok) hlines
  · rw [turn_of_error hfault]
    exact .notLoaded (c.load_eq_script registry ▸ hfault)

/-- The failures that the listener is told are those that are reported. -/
theorem errors_turn :
    ((c.turn registry deviceId notify w).events.filter (·.isError)).map (·.failure)
      = (c.turn registry deviceId notify w).result.failures.map
          fun f => (c.id, f.line, some f.message) := by
  have htagged := fun e he => ((c.block_turn registry deviceId notify w).tagged e he).2
  rw [failures_of_tagged htagged, Turn.result, CaseResult.failures]
  rcases c.load_result registry with hok | ⟨fault, hfault⟩
  · obtain ⟨visits, _, hevents, houtcome⟩ := c.turn_visits registry deviceId notify w hok
    rw [hevents, houtcome, chronicle, Interpreter.log_errors, List.map_map]
    simp only [Report.failures, List.reverse_reverse]
    rfl
  · rw [turn_of_error hfault]
    rfl

end

end Case

/-! ## Batches -/

section

variable (registry : Registry (StateM σ)) (deviceId : String) (notify : Event → σ → σ)
  (cases : List Case) (w : σ)

/-- Case by case, what is told is what is reported. -/
theorem errors_turns :
    let taken := turns registry deviceId notify cases w
    ((taken.flatMap (·.events)).filter (·.isError)).map (·.failure)
      = (taken.map (·.result)).flatMap fun r =>
          r.failures.map fun f => (r.id, f.line, some f.message) := by
  induction cases generalizing w with
  | nil => rfl
  | cons c cs ih =>
    simp only [turns, List.flatMap_cons, List.filter_append, List.map_append, List.map_cons]
    rw [ih, c.errors_turn]
    rfl

theorem errors_recordBatch :
    let report := (recordBatch registry deviceId notify cases w).1.1
    let events := (recordBatch registry deviceId notify cases w).1.2
    (events.filter (·.isError)).map (·.failure)
      = report.cases.flatMap fun r => r.failures.map fun f => (r.id, f.line, some f.message) := by
  rw [recordBatch_eq_turns]
  dsimp only
  rw [List.filter_append, List.filter_append, List.map_append, List.map_append, errors_turns]
  -- neither end of the batch is an error
  exact List.append_nil _

/-- A batch succeeds if its listener is told no failure. -/
theorem isSuccess_recordBatch_iff :
    (recordBatch registry deviceId notify cases w).1.1.isSuccess = true
      ↔ ∀ e ∈ (recordBatch registry deviceId notify cases w).1.2, e.isError = false := by
  have herrors := errors_recordBatch registry deviceId notify cases w
  dsimp only at herrors
  rw [BatchReport.isSuccess_iff]
  constructor
  · intro hnone
    have hreported : (recordBatch registry deviceId notify cases w).1.1.cases.flatMap
        (fun r => r.failures.map fun f => (r.id, f.line, some f.message)) = [] :=
      List.flatMap_eq_nil_iff.2 fun r hr => by rw [hnone r hr, List.map_nil]
    have htold := List.map_eq_nil_iff.1 (herrors.trans hreported)
    intro e he
    simpa using List.filter_eq_nil_iff.1 htold e he
  · intro hnone r hr
    have htold : (recordBatch registry deviceId notify cases w).1.2.filter (·.isError) = [] :=
      List.filter_eq_nil_iff.2 fun e he => by simp [hnone e he]
    rw [htold, List.map_nil] at herrors
    exact List.map_eq_nil_iff.1 (List.flatMap_eq_nil_iff.1 herrors.symm r hr)

end

/-- **The trace of a batch.** The listener is told the start of the batch, one block of events for
each case in order, and the end of the batch. A case whose script cannot be loaded has the fault
told between its start and its end; any other has a group of events there for each line of its
script that says something. All events of a block bear the tags of its case. The report has one
result for each case in order, and lists the failures that were told, in order. A case that cannot
be loaded calls no keyword: the world that it leaves is what the listener makes of the world that it
found. The batch leaves the world that its cases lead to. Every case passes or fails, and the batch
succeeds exactly if no failure was told. -/
theorem batch_trace (registry : Registry (StateM σ)) (deviceId : String)
    (notify : Event → σ → σ) (cases : List Case) (w : σ) :
    let event := fun kind => Event.plain kind deviceId 0
    let first := notify (event .testStart) w
    let taken := turns registry deviceId notify cases first
    let report := (recordBatch registry deviceId notify cases w).1.1
    let events := (recordBatch registry deviceId notify cases w).1.2
    taken.map (·.subject) = cases ∧
    events = [event .testStart] ++ taken.flatMap (·.events) ++ [event .testEnd] ∧
    (∀ t ∈ taken, t.subject.Block registry deviceId t.events ∧
      ∀ e ∈ t.events, e.deviceId = deviceId ∧ e.caseId = t.subject.id) ∧
    report.cases = taken.map (fun t => ⟨t.subject.id, t.subject.name, t.outcome⟩) ∧
    (events.filter (·.isError)).map (fun e => (e.caseId, e.line, e.message))
      = report.cases.flatMap (fun r => r.failures.map fun f => (r.id, f.line, some f.message)) ∧
    (∀ t ∈ taken, ∀ fault, (t.outcome = .notLoaded fault ↔
        ((Interpreter.withRegistry registry).load t.subject.script).2 = .error fault) ∧
      (t.outcome = .notLoaded fault →
        t.left = t.events.foldl (fun w e => notify e w) t.found)) ∧
    (recordBatch registry deviceId notify cases w).2
      = notify (event .testEnd) (leave registry deviceId notify cases first) ∧
    report.passed + report.failed = cases.length ∧
    (report.isSuccess = true ↔ ∀ e ∈ events, e.isError = false) := by
  intro event first taken report events
  have hbatch := recordBatch_eq_turns registry deviceId notify cases w
  have hreport : report = ⟨taken.map (·.result)⟩ := by
    show (recordBatch registry deviceId notify cases w).1.1 = _
    rw [hbatch]
  have hevents : events
      = [event .testStart] ++ taken.flatMap (·.events) ++ [event .testEnd] := by
    show (recordBatch registry deviceId notify cases w).1.2 = _
    rw [hbatch]
  have hsubjects : taken.map (·.subject) = cases :=
    turns_subjects registry deviceId notify cases first
  -- each turn is its case run alone
  have halone : ∀ t ∈ taken, t = t.subject.turn registry deviceId notify t.found :=
    fun t ht => eq_turn_of_mem registry deviceId notify ht
  refine ⟨hsubjects, hevents, fun t ht => ?_, ?_, ?_, fun t ht fault => ?_, ?_, ?_, ?_⟩
  · have hblock : t.subject.Block registry deviceId t.events := by
      rw [halone t ht]
      exact t.subject.block_turn registry deviceId notify t.found
    exact ⟨hblock, hblock.tagged⟩
  · rw [hreport]
    rfl
  · exact errors_recordBatch registry deviceId notify cases w
  · have houtcome : t.outcome = .notLoaded fault ↔ (t.subject.load registry).2 = .error fault := by
      rw [halone t ht]
      exact Case.outcome_turn_iff t.found fault
    refine ⟨t.subject.load_eq_script registry ▸ houtcome, fun hnot => ?_⟩
    rw [halone t ht, Case.turn_of_error (houtcome.1 hnot)]
  · rw [hbatch]
  · rw [BatchReport.passed_add_failed, hreport, List.length_map, ← hsubjects, List.length_map]
  · exact isSuccess_recordBatch_iff registry deviceId notify cases w

/-- A case that passes, one whose script is refused, and one that fails. -/
def mixedCases : List Case :=
  [⟨1, "good", "check a a"⟩, ⟨2, "unloadable", "check $x"⟩, ⟨3, "failing", "check a b"⟩]

/-- These cases with a listener that counts the events. -/
def mixedBatch : (BatchReport × List Event) × Nat :=
  recordBatch .new "device" (fun _ w => w + 1) mixedCases 0

theorem reported_mixed :
    mixedBatch.1.1.cases.flatMap (fun r => r.failures.map fun f => (r.id, f.line, some f.message))
      = [(2, 1, some "line 1: variable $x is not defined"),
        (3, 1, some "check failed: expected \"a\", got \"b\"")] := by
  decide +kernel

/-- Both failures are told and reported, the one of loading as well as the one of a keyword. -/
theorem batch_trace_mixed :
    (mixedBatch.1.2.filter (·.isError)).map (fun e => (e.caseId, e.line, e.message))
        = [(2, 1, some "line 1: variable $x is not defined"),
          (3, 1, some "check failed: expected \"a\", got \"b\"")] ∧
      mixedBatch.1.1.passed + mixedBatch.1.1.failed = mixedCases.length ∧
      mixedBatch.1.1.isSuccess = false ∧ mixedBatch.2 = 14 := by
  obtain ⟨_, _, _, _, hfailures, _, _, htotal, hsuccess⟩ :=
    batch_trace .new "device" (fun _ w => w + 1) mixedCases 0
  have hworld : mixedBatch.2 = 14 := by decide +kernel
  have hreported := reported_mixed
  unfold mixedBatch at hworld hreported ⊢
  have htold := hfailures.trans hreported
  refine ⟨htold, htotal, Bool.eq_false_iff.2 fun hpassed => ?_, hworld⟩
  -- a batch that succeeds would have told no failure
  rw [List.filter_eq_nil_iff.2 fun e he => Bool.eq_false_iff.1 (hsuccess.1 hpassed e he)] at htold
  exact absurd htold (List.cons_ne_nil _ _).symm

/-- The events about the three cases, between those about the batch. -/
example :
    (recordBatch (.new : Registry (StateM Unit)) "device" (fun _ w => w) mixedCases
        ()).1.2.map (fun e => (e.kind, e.caseId))
      = [(.testStart, 0), (.caseStart, 1), (.lineStart, 1), (.lineEnd, 1), (.caseEnd, 1),
          (.caseStart, 2), (.error, 2), (.caseEnd, 2), (.caseStart, 3), (.lineStart, 3),
          (.error, 3), (.lineEnd, 3), (.caseEnd, 3), (.testEnd, 0)] := by
  decide +kernel

end KeywordRunner.Script
