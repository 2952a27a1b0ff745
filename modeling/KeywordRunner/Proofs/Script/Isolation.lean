import KeywordRunner.Proofs.Script.Agreement
import KeywordRunner.Proofs.Script.Turns

/-!
# Proofs.Script.Isolation — cases do not see each other

Each case of a batch is loaded by an interpreter of its own, so that the only way from one case to a
later one is the world that keywords act on.

* **`Registry.Blind`** — no keyword looks at the world.
* **`results_walk_of_blind`** — two walks over the same lines come to the same.
* **`outcome_turn_of_blind`** — two runs of a case whose keywords are blind end alike.
* **`leave_loadable`** — a case that cannot be loaded leaves the world as it is.
* **`cases_isolated`** — what a batch makes of a case.
-/

namespace KeywordRunner.Script

variable {σ : Type}

/-! ## Keywords that do not look at the world -/

/-- In every world the keyword gives the same answer, whatever it does to the world. -/
def Keyword.Blind (call : Keyword (StateM σ)) : Prop :=
  ∀ args w w', (call args w).1 = (call args w').1

namespace Registry

/-- No keyword that can be called or imported looks at the world. -/
structure Blind (r : Registry (StateM σ)) : Prop where
  keywords : ∀ name call, r.get? name = some call → Keyword.Blind call
  libraries : ∀ key library, r.libraries.get? key = some library →
    ∀ entry ∈ library.keywords, Keyword.Blind entry.2

variable {r r' : Registry (StateM σ)}

theorem Blind.importLibrary (h : r.Blind) {name : String} {count : Nat}
    (himport : r.importLibrary name = some (r', count)) : r'.Blind := by
  obtain ⟨library, hlibrary, heq⟩ := Option.map_eq_some_iff.1 himport
  cases heq
  refine ⟨fun k call hcall => ?_, h.libraries⟩
  rcases Table.mem_or_of_get?_insertAll hcall with hnew | hold
  · exact h.libraries name library hlibrary (k, call) hnew
  · exact h.keywords k call hold

theorem Blind.importAll (h : r.Blind) {names : List String}
    (himport : r.importAll names = some r') : r'.Blind :=
  importAll_keeps himport (fun _ _ _ _ hone hr => hr.importLibrary hone) h

/-- The built-in keywords only compute. -/
theorem blind_new : (new : Registry (StateM σ)).Blind := by
  refine ⟨fun name call hcall => ?_, fun key library hlibrary => absurd hlibrary (by simp [new])⟩
  rcases Table.mem_or_of_get?_insertAll hcall with hbuiltin | hnone
  · simp only [Keyword.builtins, List.mem_cons, List.not_mem_nil, or_false] at hbuiltin
    rcases hbuiltin with heq | heq <;> cases heq <;> exact fun args w w' => rfl
  · exact absurd hnone (by simp [Table.get?, Table.empty, Entries.find?])

end Registry

/-! ## Two runs of the same lines -/

section

variable {registry : Registry (StateM σ)}

/-- The rules let a line end in one world as they let it in another, if its keyword is blind. -/
theorem Line.Runs.blind {vs : Variables} {line : Line} {w left : σ}
    {ending : Except KeywordFault Variables} (h : line.Runs registry vs w ending left)
    (hblind : ∀ name call, registry.get? name = some call → Keyword.Blind call) (w' : σ) :
    ∃ left', line.Runs registry vs w' ending left' := by
  -- what the call answers here it answers there
  have hanswer {keyword : String} {values : List RemoteValue} {call : Keyword (StateM σ)}
      {outcome : Outcome} (hget : registry.get? keyword = some call)
      (hcall : call values w = (outcome, left)) :
      call values w' = (outcome, (call values w').2) := by
    have heq := hblind keyword call hget values w' w
    rw [hcall] at heq
    exact Prod.ext heq rfl
  cases h with
  | skipped h => exact ⟨w', .skipped h⟩
  | unresolved hitems hkey hwords => exact ⟨w', .unresolved hitems hkey hwords⟩
  | notCallable hitems hkey hwords hget => exact ⟨w', .notCallable hitems hkey hwords hget⟩
  | value hitems hkey hwords hget hcall =>
    exact ⟨_, .value hitems hkey hwords hget (hanswer hget hcall)⟩
  | fault hitems hkey hwords hget hcall =>
    exact ⟨_, .fault hitems hkey hwords hget (hanswer hget hcall)⟩
  | panic hitems hkey hwords hget hcall =>
    exact ⟨_, .panic hitems hkey hwords hget (hanswer hget hcall)⟩

/-- What a visit shows of its line: the variables that it found, and how it ended. -/
def Visit.result (v : Visit σ) : Line × Variables × Except KeywordFault Variables :=
  (v.line, v.vars, v.ending)

namespace Interpreter

theorem result_visitLine_of_blind
    (hblind : ∀ name call, registry.get? name = some call → Keyword.Blind call)
    (notify notify' : Event → σ → σ) (event event' : EventKind → Event) (line : Line)
    (vs : Variables) (w w' : σ) :
    (visitLine notify registry event line vs w).1.result
      = (visitLine notify' registry event' line vs w').1.result := by
  obtain ⟨left, hruns⟩ := runs_visitLine notify registry event line vs w
  obtain ⟨left', hruns'⟩ :=
    hruns.blind hblind (visitLine notify' registry event' line vs w').1.world
  have heq : (visitLine notify' registry event' line vs w').1.ending
      = (runLine registry vs line (visitLine notify' registry event' line vs w').1.world).1 := rfl
  unfold Visit.result
  rw [heq, runLine_eq_of_runs hruns']
  rfl

/-- Two walks over the same lines come to the same, from whatever worlds, and whatever their
listeners do to these. -/
theorem results_walk_of_blind
    (hblind : ∀ name call, registry.get? name = some call → Keyword.Blind call)
    (notify notify' : Event → σ → σ) (event event' : EventKind → Event) (lines : List Line)
    (vs : Variables) (w w' : σ) :
    (walk notify registry event lines vs w).1.map (·.result)
        = (walk notify' registry event' lines vs w').1.map (·.result) ∧
      (walk notify registry event lines vs w).2.1
        = (walk notify' registry event' lines vs w').2.1 := by
  induction lines generalizing vs w w' with
  | nil => exact ⟨rfl, rfl⟩
  | cons line lines ih =>
    have hresult := result_visitLine_of_blind hblind notify notify' event event' line vs w w'
    -- the variables go on alike, so that the rest does too
    have hafter : (visitLine notify registry event line vs w).1.varsAfter
        = (visitLine notify' registry event' line vs w').1.varsAfter := by
      have hending := congrArg (fun r => r.2.2) hresult
      dsimp only [Visit.result] at hending
      unfold Visit.varsAfter
      rw [hending]
      rfl
    rw [walk, walk, List.map_cons, List.map_cons, hresult, hafter]
    obtain ⟨hresults, hvars⟩ := ih (visitLine notify' registry event' line vs w').1.varsAfter
      (visitLine notify registry event line vs w).2 (visitLine notify' registry event' line vs w').2
    exact ⟨congrArg _ hresults, hvars⟩

/-- So they meet the same failures. -/
theorem failures_walk_of_blind (hblind : registry.Blind) (notify notify' : Event → σ → σ)
    (event event' : EventKind → Event) (lines : List Line) (vs : Variables) (w w' : σ) :
    (walk notify registry event lines vs w).1.map (·.failure?)
      = (walk notify' registry event' lines vs w').1.map (·.failure?) := by
  have hfailure : ∀ visits : List (Visit σ), visits.map (·.failure?)
      = (visits.map (·.result)).map fun r => (⟨r.1, r.2.1, w, r.2.2⟩ : Visit σ).failure? := by
    intro visits
    rw [List.map_map]
    rfl
  rw [hfailure, hfailure,
    (results_walk_of_blind hblind.keywords notify notify' event event' lines vs w w').1]

/-- The reports of two runs are the same. -/
theorem report_of_blind {it : Interpreter (StateM σ)} (hblind : it.registry.Blind)
    (deviceId deviceId' : String) (notify notify' : Event → σ → σ) (w w' : σ) :
    (it.record deviceId notify w).1.1.2 = (it.record deviceId' notify' w').1.1.2 := by
  -- a report is drawn up from the failures of the visits
  have hreport : ∀ visits : List (Visit σ),
      (⟨visits.length, (visits.filterMap (·.failure?)).reverse⟩ : Report)
        = ⟨(visits.map (·.failure?)).length,
            ((visits.map (·.failure?)).filterMap id).reverse⟩ := by
    intro visits
    rw [List.length_map, List.filterMap_map]
    rfl
  rw [record_eq_walk, record_eq_walk]
  dsimp only
  rw [hreport, hreport, failures_walk_of_blind hblind]

end Interpreter

end

/-- A case whose keywords are blind comes to the same in any two worlds. -/
theorem outcome_turn_of_blind {registry : Registry (StateM σ)} (hblind : registry.Blind)
    (deviceId deviceId' : String) (notify notify' : Event → σ → σ) (c : Case) (w w' : σ) :
    (c.turn registry deviceId notify w).outcome
      = (c.turn registry deviceId' notify' w').outcome := by
  rcases c.load_result registry with hok | ⟨fault, hfault⟩
  · have hloaded : (c.load registry).1.registry.Blind := hblind.importAll
      (Interpreter.loadLines_extends (Interpreter.load_eq_of_ok hok)).1.registry
    rw [Case.turn_of_ok hok, Case.turn_of_ok hok]
    exact congrArg CaseOutcome.executed
      (Interpreter.report_of_blind hloaded deviceId deviceId' notify notify' w w')
  · rw [Case.turn_of_error hfault, Case.turn_of_error hfault]

/-! ## Cases that cannot be loaded -/

section

variable (registry : Registry (StateM σ)) (deviceId : String) {notify : Event → σ → σ}

theorem foldl_silent (hsilent : ∀ e w, notify e w = w) (events : List Event) (w : σ) :
    events.foldl (fun w e => notify e w) w = w := by
  induction events with
  | nil => rfl
  | cons e events ih => rw [List.foldl_cons, hsilent, ih]

/-- If the listener does nothing to the world, only the cases that can be loaded do. -/
theorem leave_loadable (hsilent : ∀ e w, notify e w = w) (cases : List Case) (w : σ) :
    leave registry deviceId notify cases w
      = leave registry deviceId notify (cases.filter fun c => (c.load registry).2.isOk) w := by
  induction cases generalizing w with
  | nil => rfl
  | cons c cs ih =>
    have hcons : leave registry deviceId notify (c :: cs) w
        = leave registry deviceId notify cs (c.turn registry deviceId notify w).left := rfl
    rw [hcons, ih, List.filter_cons]
    rcases c.load_result registry with hok | ⟨fault, hfault⟩
    · rw [hok]
      rfl
    · rw [hfault, Case.turn_of_error hfault]
      dsimp only
      rw [foldl_silent hsilent]
      rfl

end

/-! ## The verdict on a script -/

/-- What `check` prints about a case with some result, and whether it counts as loaded. -/
def CaseResult.verdict (r : CaseResult) : String × Bool :=
  match r.outcome with
  | .notLoaded fault => ("error " ++ r.name ++ ": " ++ fault.message, false)
  | .executed report =>
    ("ok    " ++ r.name ++ " (" ++ Digits.text report.executed ++ " lines)", true)

/-- Every loaded line is run and counted. -/
theorem executed_record (it : Interpreter (StateM σ)) (deviceId : String)
    (notify : Event → σ → σ) (w : σ) :
    (it.record deviceId notify w).1.1.2.executed = it.lines.length := by
  rw [Interpreter.record_eq_walk]
  dsimp only
  rw [← List.length_map (·.line), Interpreter.walk_lines]

theorem checkLine_of_ok {c : Case}
    (h : (c.load (CommandLine.registry (CommandLine.noDevice : DevicePort Id))).2 = .ok ()) :
    CommandLine.checkLine c
      = ("ok    " ++ c.name ++ " ("
          ++ Digits.text (Line.ofTexts 0 (Text.lines c.script)).length ++ " lines)", true) := by
  rw [← Case.lines_of_load h]
  unfold CommandLine.checkLine
  split
  · next it hload => rw [hload]
  · next it fault hload =>
    rw [hload] at h
    exact absurd h (by simp)

theorem checkLine_of_error {c : Case} {fault : LoadFault}
    (h : (c.load (CommandLine.registry (CommandLine.noDevice : DevicePort Id))).2
      = .error fault) :
    CommandLine.checkLine c = ("error " ++ c.name ++ ": " ++ fault.message, false) := by
  unfold CommandLine.checkLine
  split
  · next it hload =>
    rw [hload] at h
    exact absurd h (by simp)
  · next it f hload =>
    rw [hload] at h
    cases h
    rfl

/-- Checking a script without a device and running it against one tell the same of its loading. -/
theorem checkLine_eq_verdict (port : DevicePort (StateM σ)) (deviceId : String)
    (notify : Event → σ → σ) (c : Case) (w : σ) :
    CommandLine.checkLine c
      = (c.turn (CommandLine.registry port) deviceId notify w).result.verdict := by
  have hagree := c.load_agree
    (agree_bundled port (CommandLine.noDevice : DevicePort Id))
  rcases c.load_result (CommandLine.registry port) with hok | ⟨fault, hfault⟩
  · rw [checkLine_of_ok (hagree.symm.trans hok), Case.turn_of_ok hok, ← Case.lines_of_load hok,
      ← executed_record _ deviceId notify w]
    rfl
  · rw [checkLine_of_error (hagree.symm.trans hfault), Case.turn_of_error hfault]
    rfl

/-! ## Batches -/

section

variable (registry : Registry (StateM σ)) (deviceId : String) (notify : Event → σ → σ)
  (cases : List Case) (w : σ)

theorem leave_take_succ {i : Nat} {c : Case} (hi : cases[i]? = some c) :
    leave registry deviceId notify (cases.take (i + 1)) w
      = (c.turn registry deviceId notify
          (leave registry deviceId notify (cases.take i) w)).left := by
  rw [List.take_add_one, hi]
  unfold leave
  rw [List.foldl_append]
  rfl

/-- The result of each case is that of its turn. -/
theorem getElem?_recordBatch {i : Nat} {c : Case} (hi : cases[i]? = some c) :
    let first := notify (.plain .testStart deviceId 0) w
    (recordBatch registry deviceId notify cases w).1.1.cases[i]?
      = some (c.turn registry deviceId notify
          (leave registry deviceId notify (cases.take i) first)).result := by
  rw [recordBatch_eq_turns]
  dsimp only
  rw [List.getElem?_map, getElem?_turns, hi]
  rfl

/-- Over blind keywords the results are those of the cases alone. -/
theorem results_of_blind (hblind : registry.Blind) (notify' : Event → σ → σ) (w' : σ) :
    (recordBatch registry deviceId notify cases w).1.1.cases
      = cases.map fun c =>
          (⟨c.id, c.name, (c.turn registry deviceId notify' w').outcome⟩ : CaseResult) := by
  let taken := turns registry deviceId notify cases (notify (.plain .testStart deviceId 0) w)
  let alone := fun c : Case =>
    (⟨c.id, c.name, (c.turn registry deviceId notify' w').outcome⟩ : CaseResult)
  have hsubjects : taken.map (·.subject) = cases := turns_subjects registry deviceId notify _ _
  have halone : ∀ t ∈ taken, t.result = alone t.subject := by
    intro t ht
    have houtcome := outcome_turn_of_blind hblind deviceId deviceId notify notify' t.subject
      t.found w'
    rw [← eq_turn_of_mem registry deviceId notify ht] at houtcome
    rw [Turn.result, houtcome]
  calc (recordBatch registry deviceId notify cases w).1.1.cases
      = taken.map (·.result) := by rw [recordBatch_eq_turns]
    _ = taken.map fun t => alone t.subject := List.map_congr_left halone
    _ = (taken.map (·.subject)).map alone := by
      rw [List.map_map]
      rfl
    _ = cases.map alone := by rw [hsubjects]

end

/-- **Cases are isolated.** What comes of the case at a place, and what the listener is told about
it, are those of its script loaded and run by a fresh interpreter over the registry of the batch,
from the world that the cases before it left. A case that cannot be loaded does nothing to the
world; if the listener does not either, only the cases that could be loaded have led there. So if no
keyword looks at the world, what comes of each case is what comes of it alone, from any world. In
any case its script alone decides whether it can be loaded, and why not; over the registry of the
program the verdict is the one that `check` gives. -/
theorem cases_isolated (registry : Registry (StateM σ)) (deviceId : String)
    (notify : Event → σ → σ) (cases : List Case) (w : σ) :
    let event := fun kind => Event.plain kind deviceId 0
    let first := notify (event .testStart) w
    let found := fun i => leave registry deviceId notify (cases.take i) first
    let report := (recordBatch registry deviceId notify cases w).1.1
    let events := (recordBatch registry deviceId notify cases w).1.2
    (∃ blocks : List (List Event), blocks.length = cases.length ∧
      events = [event .testStart] ++ blocks.flatten ++ [event .testEnd] ∧
      ∀ (i : Nat) (c : Case), cases[i]? = some c →
        let fresh := ((Interpreter.withRegistry registry).setCaseId c.id).load c.script
        (fresh.2 = .ok () →
          let run := fresh.1.record deviceId notify (found i)
          report.cases[i]? = some ⟨c.id, c.name, .executed run.1.1.2⟩ ∧
            blocks[i]? = some run.1.2 ∧ found (i + 1) = run.2) ∧
        ∀ fault, fresh.2 = .error fault →
          report.cases[i]? = some ⟨c.id, c.name, .notLoaded fault⟩ ∧
            blocks[i]? = some (c.refusal deviceId fault) ∧
            found (i + 1) = (c.refusal deviceId fault).foldl (fun w e => notify e w) (found i)) ∧
    ((∀ e w, notify e w = w) → ∀ i, found i = leave registry deviceId notify
      ((cases.take i).filter fun c => (c.load registry).2.isOk) first) ∧
    (registry.Blind → ∀ notify' w', report.cases = cases.map fun c =>
      (⟨c.id, c.name, (c.turn registry deviceId notify' w').outcome⟩ : CaseResult)) ∧
    (∀ (i : Nat) (c : Case), cases[i]? = some c → ∀ fault,
      report.cases[i]? = some ⟨c.id, c.name, .notLoaded fault⟩
        ↔ ((Interpreter.withRegistry registry).load c.script).2 = .error fault) ∧
    ∀ port, registry = CommandLine.registry port → ∀ (i : Nat) (c : Case), cases[i]? = some c →
      ∃ result, report.cases[i]? = some result ∧ CommandLine.checkLine c = result.verdict := by
  intro event first found report events
  have hresult : ∀ (i : Nat) (c : Case), cases[i]? = some c →
      report.cases[i]? = some (c.turn registry deviceId notify (found i)).result :=
    fun i c hi => getElem?_recordBatch registry deviceId notify cases w hi
  have hnext : ∀ i c, cases[i]? = some c →
      found (i + 1) = (c.turn registry deviceId notify (found i)).left :=
    fun i c hi => leave_take_succ registry deviceId notify cases first hi
  let taken := turns registry deviceId notify cases first
  have hblock : ∀ (i : Nat) (c : Case), cases[i]? = some c →
      (taken.map (·.events))[i]? = some (c.turn registry deviceId notify (found i)).events := by
    intro i c hi
    rw [List.getElem?_map, getElem?_turns, hi]
    rfl
  refine ⟨⟨taken.map (·.events), ?_, ?_, fun i c hi => ?_⟩, fun hsilent i => ?_,
    fun hblind notify' w' => ?_, fun i c hi fault => ?_, fun port hport i c hi => ?_⟩
  · rw [List.length_map, ← List.length_map (·.subject), turns_subjects]
  · show (recordBatch registry deviceId notify cases w).1.2 = _
    rw [recordBatch_eq_turns, List.flatMap_def]
  · intro fresh
    have hfresh : fresh = c.load registry := rfl
    rw [hfresh, hresult i c hi, hblock i c hi, hnext i c hi]
    refine ⟨fun hok => ?_, fun fault hfault => ?_⟩
    · rw [Case.turn_of_ok hok]
      dsimp only [Turn.result]
      exact ⟨rfl, rfl, rfl⟩
    · rw [Case.turn_of_error hfault]
      exact ⟨rfl, rfl, rfl⟩
  · exact leave_loadable registry deviceId hsilent (cases.take i) first
  · exact results_of_blind registry deviceId notify cases w hblind notify' w'
  · have houtcome : (c.turn registry deviceId notify (found i)).outcome = .notLoaded fault
        ↔ (c.load registry).2 = .error fault := Case.outcome_turn_iff (found i) fault
    rw [hresult i c hi, ← c.load_eq_script, ← houtcome]
    refine ⟨fun h => congrArg CaseResult.outcome (Option.some.inj h), fun h => ?_⟩
    rw [Turn.result, h]
    rfl
  · refine ⟨_, hresult i c hi, ?_⟩
    rw [hport]
    exact checkLine_eq_verdict port deviceId notify c (found i)

/-- The built-in keywords are blind: a listener that counts its events changes no result. -/
theorem cases_isolated_over_builtins :
    (Registry.new : Registry (StateM Nat)).Blind ∧
      let cases : List Case := [⟨1, "good", "check a a"⟩, ⟨2, "unloadable", "check $x"⟩]
      (recordBatch .new "device" (fun _ w => w + 1) cases 0).1.1.cases
        = cases.map fun c =>
            (⟨c.id, c.name, (c.turn .new "device" (fun _ w => w) 7).outcome⟩ : CaseResult) :=
  ⟨Registry.blind_new,
    (cases_isolated .new "device" (fun _ w => w + 1)
      [⟨1, "good", "check a a"⟩, ⟨2, "unloadable", "check $x"⟩] 0).2.2.1
      Registry.blind_new (fun _ w => w) 7⟩

end KeywordRunner.Script
