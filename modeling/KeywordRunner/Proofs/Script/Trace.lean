import KeywordRunner.Proofs.Script.Visits

/-!
# Proofs.Script.Trace — what a listener is told

Whatever its keywords do, a run tells its listener about every line, and reports a failure exactly
where a line fails.

* **`execute_trace`** — the log of a run and its report, line by line.
-/

namespace KeywordRunner.Script

variable {σ : Type}

namespace Visit

/-- A visit has a fault exactly where the rules let its line fail. -/
theorem fault?_eq_some_iff {registry : Registry (StateM σ)} {v : Visit σ} {w' : σ}
    (hruns : v.line.Runs registry v.vars v.world v.ending w') (fault : KeywordFault) :
    v.fault? = some fault ↔ ∃ w', v.line.Runs registry v.vars v.world (.error fault) w' := by
  constructor
  · intro hfault
    unfold fault? at hfault
    split at hfault
    · exact absurd hfault (by simp)
    · next f hending =>
      cases hfault
      exact ⟨w', hending ▸ hruns⟩
  · rintro ⟨w'', hfails⟩
    -- the rules leave a line one ending
    have heq : (Except.error fault, w'') = (v.ending, w') :=
      (Interpreter.runLine_eq_of_runs hfails).symm.trans (Interpreter.runLine_eq_of_runs hruns)
    have hending : Except.error fault = v.ending := (Prod.mk.inj heq).1
    unfold fault?
    rw [← hending]

/-- Every event about a line bears the tags of the run. -/
theorem events_tagged {event : EventKind → Event} {deviceId : String} {caseId : Nat}
    (htag : ∀ kind, (event kind).deviceId = deviceId ∧ (event kind).caseId = caseId) (v : Visit σ) :
    ∀ e ∈ v.events event, e.deviceId = deviceId ∧ e.caseId = caseId := by
  intro e he
  unfold events at he
  rcases List.mem_cons.1 he with rfl | he
  · exact htag .lineStart
  · rcases List.mem_append.1 he with he | he
    · obtain ⟨failure, _, rfl⟩ := List.mem_map.1 he
      exact htag .error
    · rw [List.mem_singleton.1 he]
      exact htag .lineEnd

/-- The failures among the events about a line are the failure of that line, if there is one. -/
theorem events_errors {deviceId : String} {caseId : Nat} (v : Visit σ) :
    ((v.events fun kind => Event.plain kind deviceId caseId).filter (·.isError)).map
        (fun e => (e.line, e.message))
      = v.failure?.toList.map fun f => (f.line, some f.message) := by
  unfold events
  cases v.failure? with
  | none => rfl
  | some failure => rfl

end Visit

namespace Interpreter

/-- Whatever the visits, the log of a run bears the tags of that run. -/
theorem log_tagged {deviceId : String} {caseId : Nat} (visits : List (Visit σ)) :
    let event := fun kind => Event.plain kind deviceId caseId
    ∀ e ∈ [event .caseStart] ++ visits.flatMap (·.events event) ++ [event .caseEnd],
      e.deviceId = deviceId ∧ e.caseId = caseId := by
  intro event e he
  have htag : ∀ kind, (event kind).deviceId = deviceId ∧ (event kind).caseId = caseId :=
    fun kind => ⟨rfl, rfl⟩
  rcases List.mem_append.1 he with he | he
  · rcases List.mem_append.1 he with he | he
    · rw [List.mem_singleton.1 he]
      exact htag .caseStart
    · obtain ⟨v, _, hv⟩ := List.mem_flatMap.1 he
      exact v.events_tagged htag e hv
  · rw [List.mem_singleton.1 he]
    exact htag .caseEnd

/-- The log and the report are two records of the same failures. -/
theorem log_errors {deviceId : String} {caseId : Nat} (visits : List (Visit σ)) :
    let event := fun kind => Event.plain kind deviceId caseId
    (([event .caseStart] ++ visits.flatMap (·.events event) ++ [event .caseEnd]).filter
        (·.isError)).map (fun e => (e.line, e.message))
      = (visits.filterMap (·.failure?)).map fun f => (f.line, some f.message) := by
  intro event
  -- neither end of the case is an error
  have hcase : ∀ kind, kind ≠ .error → [event kind].filter (·.isError) = [] := by
    intro kind hkind
    simp [event, Event.isError, Event.plain, hkind]
  rw [List.filter_append, List.filter_append, hcase .caseStart (by decide),
    hcase .caseEnd (by decide), List.nil_append, List.append_nil]
  -- line by line, what is told is what is counted
  induction visits with
  | nil => rfl
  | cons v visits ih =>
    rw [List.flatMap_cons, List.filter_append, List.map_append, ih, Visit.events_errors]
    cases hfailure : v.failure? with
    | none => simp [hfailure]
    | some failure => simp [hfailure]

/-- **The trace of a run.** A run starts its case, visits the loaded lines in order, and ends its
case. About each line the listener is told its start, its failure if it fails, and its end. A line
fails exactly as the rules allow; comments and imports call nothing, whatever is registered. The
report counts the lines and lists the failures that were told, in order. -/
theorem execute_trace (it : Interpreter (StateM σ)) (deviceId : String)
    (notify : Event → σ → σ) (w : σ) :
    let event := fun kind => Event.plain kind deviceId it.caseId
    let visits := it.visits deviceId notify w
    let report := (it.record deviceId notify w).1.1.2
    let events := (it.record deviceId notify w).1.2
    visits.map (·.line) = it.lines ∧
    events = [event .caseStart] ++ visits.flatMap (·.events event) ++ [event .caseEnd] ∧
    (∀ e ∈ events, e.deviceId = deviceId ∧ e.caseId = it.caseId) ∧
    (∀ v ∈ visits, ∀ fault, v.fault? = some fault ↔
      ∃ w', v.line.Runs it.registry v.vars v.world (.error fault) w') ∧
    (∀ line : Line, line.isComment = true ∨ line.keyword = some Keyword.importName →
      ∀ (n : Type → Type) [Monad n] (registry : Registry n) (vs : Variables),
        runLine registry vs line = pure (.ok vs)) ∧
    report.executed = it.lines.length ∧
    (events.filter (·.isError)).map (fun e => (e.line, e.message))
      = report.failures.map fun f => (f.line, some f.message) := by
  intro event visits report events
  have hrecord := record_eq_walk it deviceId notify w
  have hreport : report = ⟨visits.length, (visits.filterMap (·.failure?)).reverse⟩ := by
    show (it.record deviceId notify w).1.1.2 = _
    rw [hrecord]
    rfl
  have hevents : events
      = [event .caseStart] ++ visits.flatMap (·.events event) ++ [event .caseEnd] := by
    show (it.record deviceId notify w).1.2 = _
    rw [hrecord]
    rfl
  have hlines : visits.map (·.line) = it.lines :=
    walk_lines notify it.registry event it.lines it.vars (notify (event .caseStart) w)
  refine ⟨hlines, hevents, ?_, fun v hv => ?_, fun line hline n _ registry vs => ?_, ?_, ?_⟩
  · rw [hevents]
    exact log_tagged visits
  · obtain ⟨w', hruns⟩ := runs_of_mem_walk notify it.registry event hv
    exact Visit.fault?_eq_some_iff hruns
  · exact runLine_of_skipped registry vs (hline.imp_left Line.keyword_of_isComment)
  · rw [hreport, ← hlines, List.length_map]
  · rw [hevents, hreport, Report.failures, List.reverse_reverse]
    exact log_errors visits

end Interpreter

end KeywordRunner.Script
