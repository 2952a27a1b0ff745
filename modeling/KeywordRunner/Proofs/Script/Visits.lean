import KeywordRunner.Script.Execution

/-!
# Proofs.Script.Visits — a run, line by line

Keywords act on a world of any type `σ`: a keyword is an arbitrary function of its arguments and
the world, so it may answer each call as it likes. A listener keeps a log of the events and does to
the world whatever it does besides.

* **`Visit`** — one line of a run: what it found, and how it ended.
* **`walk`** — the visits of a run, with the variables and the world at its end.
* **`record_eq_walk`** — a run is its visits: they determine the log, the report, the variables and
  the world.
-/

namespace KeywordRunner.Script

variable {σ : Type}

/-! ## How a line can end -/

/-- The ways in which a line can run, in the order in which they are met: nothing is called, the
arguments do not resolve, there is no such keyword, or the call itself ends in one of three ways. -/
inductive Line.Runs (registry : Registry (StateM σ)) (vs : Variables) (line : Line) (w : σ) :
    Except KeywordFault Variables → σ → Prop where
  /-- Comments and imports call nothing. -/
  | skipped (h : line.keyword = none ∨ line.keyword = some Keyword.importName) :
      Runs registry vs line w (.ok vs) w
  | unresolved {keyword : String} {words : List String} {fault : KeywordFault}
      (hitems : line.items = keyword :: words) (hkey : keyword ≠ Keyword.importName)
      (hwords : vs.resolveAll words = .error fault) :
      Runs registry vs line w (.error fault) w
  | notCallable {keyword : String} {words : List String} {values : List RemoteValue}
      (hitems : line.items = keyword :: words) (hkey : keyword ≠ Keyword.importName)
      (hwords : vs.resolveAll words = .ok values) (hget : registry.get? keyword = none) :
      Runs registry vs line w (.error (.notCallable keyword)) w
  | value {keyword : String} {words : List String} {values : List RemoteValue}
      {call : Keyword (StateM σ)} {v : RemoteValue} {w' : σ}
      (hitems : line.items = keyword :: words) (hkey : keyword ≠ Keyword.importName)
      (hwords : vs.resolveAll words = .ok values) (hget : registry.get? keyword = some call)
      (hcall : call values w = (.value v, w')) :
      Runs registry vs line w (.ok (Interpreter.bindOutput vs line.output v)) w'
  | fault {keyword : String} {words : List String} {values : List RemoteValue}
      {call : Keyword (StateM σ)} {f : KeywordFault} {w' : σ}
      (hitems : line.items = keyword :: words) (hkey : keyword ≠ Keyword.importName)
      (hwords : vs.resolveAll words = .ok values) (hget : registry.get? keyword = some call)
      (hcall : call values w = (.fault f, w')) :
      Runs registry vs line w (.error f) w'
  | panic {keyword : String} {words : List String} {values : List RemoteValue}
      {call : Keyword (StateM σ)} {p : Panic} {w' : σ}
      (hitems : line.items = keyword :: words) (hkey : keyword ≠ Keyword.importName)
      (hwords : vs.resolveAll words = .ok values) (hget : registry.get? keyword = some call)
      (hcall : call values w = (.panic p, w')) :
      Runs registry vs line w (.error (.panicked keyword p.message)) w'

namespace Interpreter

theorem invocation?_eq_none {line : Line}
    (h : line.keyword = none ∨ line.keyword = some Keyword.importName) :
    invocation? line = none := by
  unfold invocation?
  rw [Line.keyword] at h
  cases hitems : line.items with
  | nil => rfl
  | cons keyword words =>
    rw [hitems, List.head?_cons] at h
    have hkey : keyword = Keyword.importName := by simpa using h
    exact if_pos hkey

/-- A line that calls nothing does nothing, in whatever monad keywords act. -/
theorem runLine_of_skipped {n : Type → Type} [Monad n] (registry : Registry n) (vs : Variables)
    {line : Line} (h : line.keyword = none ∨ line.keyword = some Keyword.importName) :
    runLine registry vs line = pure (.ok vs) := by
  unfold runLine
  rw [invocation?_eq_none h]

theorem invocation?_eq_some {line : Line} {keyword : String} {words : List String}
    (hitems : line.items = keyword :: words) (hkey : keyword ≠ Keyword.importName) :
    invocation? line = some (keyword, words) := by
  unfold invocation?
  rw [hitems]
  exact if_neg hkey

/-- A line whose arguments resolve and whose keyword is found ends as its call ends. -/
theorem runLine_of_found {registry : Registry (StateM σ)} {vs : Variables} {line : Line}
    {keyword : String} {words : List String} {values : List RemoteValue}
    {call : Keyword (StateM σ)} (hitems : line.items = keyword :: words)
    (hkey : keyword ≠ Keyword.importName) (hwords : vs.resolveAll words = .ok values)
    (hget : registry.get? keyword = some call) (w : σ) :
    runLine registry vs line w
      = (match (call values w).1 with
          | .value v => .ok (bindOutput vs line.output v)
          | .fault f => .error f
          | .panic p => .error (.panicked keyword p.message), (call values w).2) := by
  unfold runLine
  rw [invocation?_eq_some hitems hkey]
  dsimp only
  rw [hwords]
  dsimp only
  rw [hget]
  simp only [bind, StateT.bind]
  cases call values w with
  | mk outcome w' => cases outcome <;> rfl

theorem runLine_eq_of_runs {registry : Registry (StateM σ)} {vs : Variables} {line : Line}
    {w w' : σ} {ending : Except KeywordFault Variables}
    (h : line.Runs registry vs w ending w') : runLine registry vs line w = (ending, w') := by
  cases h with
  | skipped h =>
    rw [runLine_of_skipped registry vs h]
    rfl
  | unresolved hitems hkey hwords =>
    unfold runLine
    rw [invocation?_eq_some hitems hkey]
    dsimp only
    rw [hwords]
    rfl
  | notCallable hitems hkey hwords hget =>
    unfold runLine
    rw [invocation?_eq_some hitems hkey]
    dsimp only
    rw [hwords]
    dsimp only
    rw [hget]
    rfl
  | value hitems hkey hwords hget hcall =>
    rw [runLine_of_found hitems hkey hwords hget, hcall]
  | fault hitems hkey hwords hget hcall =>
    rw [runLine_of_found hitems hkey hwords hget, hcall]
  | panic hitems hkey hwords hget hcall =>
    rw [runLine_of_found hitems hkey hwords hget, hcall]

theorem exists_runs (registry : Registry (StateM σ)) (vs : Variables) (line : Line) (w : σ) :
    ∃ ending w', line.Runs registry vs w ending w' := by
  cases hitems : line.items with
  | nil => exact ⟨_, _, .skipped (Or.inl (by rw [Line.keyword, hitems, List.head?_nil]))⟩
  | cons keyword words =>
    by_cases hkey : keyword = Keyword.importName
    · exact ⟨_, _, .skipped (Or.inr (by rw [Line.keyword, hitems, List.head?_cons, hkey]))⟩
    · cases hwords : vs.resolveAll words with
      | error fault => exact ⟨_, _, .unresolved hitems hkey hwords⟩
      | ok values =>
        cases hget : registry.get? keyword with
        | none => exact ⟨_, _, .notCallable hitems hkey hwords hget⟩
        | some call =>
          cases hcall : call values w with
          | mk outcome w' =>
            cases outcome with
            | value v => exact ⟨_, _, .value hitems hkey hwords hget hcall⟩
            | fault f => exact ⟨_, _, .fault hitems hkey hwords hget hcall⟩
            | panic p => exact ⟨_, _, .panic hitems hkey hwords hget hcall⟩

/-- Running a line is exactly what the rules allow. -/
theorem runLine_eq_iff {registry : Registry (StateM σ)} {vs : Variables} {line : Line} {w w' : σ}
    {ending : Except KeywordFault Variables} :
    runLine registry vs line w = (ending, w') ↔ line.Runs registry vs w ending w' := by
  refine ⟨fun h => ?_, runLine_eq_of_runs⟩
  -- some rule applies, and a rule leaves only one result
  obtain ⟨ending', w'', hruns⟩ := exists_runs registry vs line w
  have heq := (runLine_eq_of_runs hruns).symm.trans h
  cases heq
  exact hruns

end Interpreter

/-! ## Visits -/

/-- One line of a run: the variables and the world that it found, and how it ended. -/
structure Visit (σ : Type) where
  line : Line
  vars : Variables
  world : σ
  ending : Except KeywordFault Variables

namespace Visit

def fault? (v : Visit σ) : Option KeywordFault :=
  match v.ending with
  | .ok _ => none
  | .error fault => some fault

/-- What is reported about the line, if it failed. -/
def failure? (v : Visit σ) : Option LineFailure :=
  v.fault?.map fun fault => ⟨v.line.number, fault.message⟩

/-- The variables that the next line finds. -/
def varsAfter (v : Visit σ) : Variables :=
  match v.ending with
  | .ok vs => vs
  | .error _ => v.vars

/-- The event that reports a failure. -/
def errorEvent (event : EventKind → Event) (failure : LineFailure) : Event :=
  ((event .error).atLine failure.line).withMessage failure.message

/-- What the listener is told about the line. -/
def events (event : EventKind → Event) (v : Visit σ) : List Event :=
  (event .lineStart).atLine v.line.number ::
    (v.failure?.toList.map (errorEvent event) ++ [(event .lineEnd).atLine v.line.number])

end Visit

/-- A listener that keeps a log. It may act on the world as well. -/
def recorder (notify : Event → σ → σ) (e : Event) : StateT (List Event) (StateM σ) Unit :=
  fun log w => (((), log ++ [e]), notify e w)

namespace Interpreter

/-- Visits one line, between the events that the listener is told: the visit, and the world after
the last of these events. -/
def visitLine (notify : Event → σ → σ) (registry : Registry (StateM σ))
    (event : EventKind → Event) (line : Line) (vs : Variables) (w : σ) : Visit σ × σ :=
  let found := notify ((event .lineStart).atLine line.number) w
  let run := runLine registry vs line found
  let visit : Visit σ := ⟨line, vs, found, run.1⟩
  (visit, (visit.events event).tail.foldl (fun w e => notify e w) run.2)

/-- The visits of a run, and the variables and the world at its end. -/
def walk (notify : Event → σ → σ) (registry : Registry (StateM σ)) (event : EventKind → Event) :
    List Line → Variables → σ → List (Visit σ) × Variables × σ
  | [], vs, w => ([], vs, w)
  | line :: lines, vs, w =>
    let first := visitLine notify registry event line vs w
    let rest := walk notify registry event lines first.1.varsAfter first.2
    (first.1 :: rest.1, rest.2)

/-- The visits of a run of all loaded lines. -/
def visits (it : Interpreter (StateM σ)) (deviceId : String) (notify : Event → σ → σ) (w : σ) :
    List (Visit σ) :=
  let event := fun kind => Event.plain kind deviceId it.caseId
  (walk notify it.registry event it.lines it.vars (notify (event .caseStart) w)).1

/-- A run of all loaded lines with a listener that keeps a log. -/
def record (it : Interpreter (StateM σ)) (deviceId : String) (notify : Event → σ → σ) (w : σ) :
    ((Interpreter (StateM σ) × Report) × List Event) × σ :=
  ((it.execute deviceId (recorder notify)).run []).run w

/-! ## A run is its visits -/

section

variable {notify : Event → σ → σ} {registry : Registry (StateM σ)} {event : EventKind → Event}
  {line : Line} {lines : List Line} {vs : Variables} {report : Report} {log : List Event} {w : σ}

theorem runLines_cons_of_ok {vs' : Variables} {left : σ}
    (h : runLine registry vs line (notify ((event .lineStart).atLine line.number) w)
      = (.ok vs', left)) :
    runLines (recorder notify) registry event (line :: lines) vs report log w
      = runLines (recorder notify) registry event lines vs' (report.count none)
          (log ++ [(event .lineStart).atLine line.number] ++ [(event .lineEnd).atLine line.number])
          (notify ((event .lineEnd).atLine line.number) left) := by
  rw [runLines]
  simp only [bind, StateT.bind, recorder, liftM, monadLift, MonadLift.monadLift, StateT.lift, h]
  rfl

theorem runLines_cons_of_error {fault : KeywordFault} {left : σ}
    (h : runLine registry vs line (notify ((event .lineStart).atLine line.number) w)
      = (.error fault, left)) :
    runLines (recorder notify) registry event (line :: lines) vs report log w
      = runLines (recorder notify) registry event lines vs
          (report.count (some ⟨line.number, fault.message⟩))
          (log ++ [(event .lineStart).atLine line.number]
            ++ [((event .error).atLine line.number).withMessage fault.message]
            ++ [(event .lineEnd).atLine line.number])
          (notify ((event .lineEnd).atLine line.number)
            (notify (((event .error).atLine line.number).withMessage fault.message) left)) := by
  rw [runLines]
  simp only [bind, StateT.bind, recorder, liftM, monadLift, MonadLift.monadLift, StateT.lift, h]
  rfl

end

/-- The walk and the run take the same steps, whatever has been reported and logged before. -/
theorem runLines_eq_walk (notify : Event → σ → σ) (registry : Registry (StateM σ))
    (event : EventKind → Event) (lines : List Line) (vs : Variables) (report : Report)
    (log : List Event) (w : σ) :
    let run := walk notify registry event lines vs w
    runLines (recorder notify) registry event lines vs report log w
      = (((run.2.1, ⟨report.executed + run.1.length,
            (run.1.filterMap (·.failure?)).reverse ++ report.failed⟩),
          log ++ run.1.flatMap (·.events event)), run.2.2) := by
  -- on the lines, whatever the run so far has left in the report and the log
  induction lines generalizing vs report log w with
  | nil =>
    dsimp only [walk]
    rw [List.flatMap_nil, List.append_nil]
    rfl
  | cons line lines ih =>
    cases hline : runLine registry vs line (notify ((event .lineStart).atLine line.number) w) with
    | mk ending left =>
      cases ending with
      | ok vs' =>
        rw [runLines_cons_of_ok hline, ih]
        simp [walk, visitLine, hline, Visit.events, Visit.failure?, Visit.fault?, Visit.varsAfter,
          Report.count, Nat.add_assoc, Nat.add_comm 1]
      | error fault =>
        rw [runLines_cons_of_error hline, ih]
        simp [walk, visitLine, hline, Visit.events, Visit.failure?, Visit.fault?, Visit.varsAfter,
          Visit.errorEvent, Report.count, Nat.add_assoc, Nat.add_comm 1]

/-- A whole run: what it logs, reports and leaves behind is determined by its visits. -/
theorem record_eq_walk (it : Interpreter (StateM σ)) (deviceId : String)
    (notify : Event → σ → σ) (w : σ) :
    let event := fun kind => Event.plain kind deviceId it.caseId
    let run := walk notify it.registry event it.lines it.vars (notify (event .caseStart) w)
    it.record deviceId notify w
      = ((({ it with vars := run.2.1 },
            ⟨run.1.length, (run.1.filterMap (·.failure?)).reverse⟩),
          [event .caseStart] ++ run.1.flatMap (·.events event) ++ [event .caseEnd]),
        notify (event .caseEnd) run.2.2) := by
  intro event run
  have hlines : runLines (recorder notify) it.registry event it.lines it.vars .empty
      [event .caseStart] (notify (event .caseStart) w)
      = (((run.2.1, ⟨run.1.length, (run.1.filterMap (·.failure?)).reverse⟩),
          [event .caseStart] ++ run.1.flatMap (·.events event)), run.2.2) := by
    rw [runLines_eq_walk, Report.empty, Nat.zero_add, List.append_nil]
  -- the two events about the case stand around those about its lines
  have hopen : it.record deviceId notify w
      = (let lines := runLines (recorder notify) it.registry event it.lines it.vars .empty
          [event .caseStart] (notify (event .caseStart) w)
        ((({ it with vars := lines.1.1.1 }, lines.1.1.2), lines.1.2 ++ [event .caseEnd]),
          notify (event .caseEnd) lines.2)) := rfl
  rw [hopen, hlines]

/-! ## The visits of a run -/

section

variable (notify : Event → σ → σ) (registry : Registry (StateM σ)) (event : EventKind → Event)

theorem walk_lines (lines : List Line) (vs : Variables) (w : σ) :
    (walk notify registry event lines vs w).1.map (·.line) = lines := by
  induction lines generalizing vs w with
  | nil => rfl
  | cons line lines ih =>
    rw [walk, List.map_cons, ih]
    rfl

/-- A walk over some lines goes on over more lines with what it has left. -/
theorem walk_append (lines more : List Line) (vs : Variables) (w : σ) :
    let first := walk notify registry event lines vs w
    let rest := walk notify registry event more first.2.1 first.2.2
    walk notify registry event (lines ++ more) vs w = (first.1 ++ rest.1, rest.2) := by
  induction lines generalizing vs w with
  | nil => rfl
  | cons line lines ih =>
    dsimp only [List.cons_append, walk]
    rw [ih]

/-- A visit is a run of its line, from the variables and the world that it found. -/
theorem runs_visitLine (line : Line) (vs : Variables) (w : σ) :
    ∃ w', line.Runs registry vs (visitLine notify registry event line vs w).1.world
      (visitLine notify registry event line vs w).1.ending w' :=
  ⟨_, runLine_eq_iff.1 rfl⟩

theorem runs_of_mem_walk {lines : List Line} {vs : Variables} {w : σ} {v : Visit σ}
    (hv : v ∈ (walk notify registry event lines vs w).1) :
    ∃ w', v.line.Runs registry v.vars v.world v.ending w' := by
  induction lines generalizing vs w with
  | nil => exact absurd hv List.not_mem_nil
  | cons line lines ih =>
    rw [walk] at hv
    rcases List.mem_cons.1 hv with rfl | hv
    · exact runs_visitLine notify registry event line vs w
    · exact ih hv

/-- What every line that succeeds keeps of the variables, the whole run keeps. -/
theorem walk_keeps {P : Variables → Prop} {lines : List Line} {vs : Variables} {w : σ}
    (hstep : ∀ line ∈ lines, ∀ vs w vs' w', line.Runs registry vs w (.ok vs') w' → P vs → P vs')
    (hvs : P vs) :
    (∀ v ∈ (walk notify registry event lines vs w).1, P v.vars) ∧
      P (walk notify registry event lines vs w).2.1 := by
  induction lines generalizing vs w with
  | nil => exact ⟨fun v hv => absurd hv List.not_mem_nil, hvs⟩
  | cons line lines ih =>
    -- a line that fails leaves the variables as they are
    have hafter : P (visitLine notify registry event line vs w).1.varsAfter := by
      obtain ⟨w', hruns⟩ := runs_visitLine notify registry event line vs w
      unfold Visit.varsAfter
      split
      · next vs' hending =>
        rw [hending] at hruns
        exact hstep line List.mem_cons_self vs _ vs' w' hruns hvs
      · exact hvs
    obtain ⟨hvisits, hlast⟩ := ih (fun line' hmem => hstep line' (List.mem_cons_of_mem line hmem))
      hafter (w := (visitLine notify registry event line vs w).2)
    rw [walk]
    refine ⟨fun v hv => ?_, hlast⟩
    rcases List.mem_cons.1 hv with rfl | hv
    · exact hvs
    · exact hvisits v hv

end

end Interpreter

end KeywordRunner.Script
