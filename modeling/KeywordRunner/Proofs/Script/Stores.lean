import KeywordRunner.Proofs.Script.Isolation

/-!
# Proofs.Script.Stores — what a run does to the variables

A line binds the value that its call returns, and a line that fails binds nothing. So after any
number of lines a variable has the value of the last line that returned one for it, and a failing
line might as well not be there.

* **`Line.Returns`** — the call of a line returns a value.
* **`Interpreter.get?_walk_of_returns`**, **`get?_walk_of_not_returns`** — a variable after some
  lines.
* **`Interpreter.walk_without`** — a walk without one of its failing lines.
* **`Interpreter.failing_lines_bind_nothing`** — both for a run of all loaded lines.
-/

namespace KeywordRunner.Script

variable {σ : Type}

/-! ## Values that lines return -/

/-- The line calls its keyword, and the call returns a value. -/
def Line.Returns (registry : Registry (StateM σ)) (vs : Variables) (line : Line) (w : σ)
    (value : RemoteValue) : Prop :=
  ∃ keyword words values call, line.items = keyword :: words ∧ keyword ≠ Keyword.importName ∧
    vs.resolveAll words = .ok values ∧ registry.get? keyword = some call ∧
    (call values w).1 = .value value

/-- The call of a visit returned a value. -/
def Visit.Returns (registry : Registry (StateM σ)) (v : Visit σ) (value : RemoteValue) : Prop :=
  v.line.Returns registry v.vars v.world value

section

variable {registry : Registry (StateM σ)} {vs : Variables} {line : Line} {w w' : σ}
  {ending : Except KeywordFault Variables} {value : RemoteValue}

/-- A line that returns a value succeeds, and binds that value. -/
theorem Line.Returns.runs (h : line.Returns registry vs w value) :
    ∃ w', line.Runs registry vs w (.ok (Interpreter.bindOutput vs line.output value)) w' := by
  obtain ⟨keyword, words, values, call, hitems, hkey, hwords, hget, hcall⟩ := h
  exact ⟨_, .value hitems hkey hwords hget (Prod.ext hcall rfl)⟩

/-- Any other line leaves the variables alone, whether it fails or calls nothing. -/
theorem Line.Runs.eq_or_returns (h : line.Runs registry vs w ending w') :
    (∀ vs', ending = .ok vs' → vs' = vs) ∨ ∃ value, line.Returns registry vs w value := by
  cases h with
  | skipped h => exact Or.inl fun vs' heq => (Except.ok.inj heq).symm
  | unresolved hitems hkey hwords => exact Or.inl fun vs' heq => absurd heq (by simp)
  | notCallable hitems hkey hwords hget => exact Or.inl fun vs' heq => absurd heq (by simp)
  | value hitems hkey hwords hget hcall =>
    exact Or.inr ⟨_, _, _, _, _, hitems, hkey, hwords, hget, by rw [hcall]⟩
  | fault hitems hkey hwords hget hcall => exact Or.inl fun vs' heq => absurd heq (by simp)
  | panic hitems hkey hwords hget hcall => exact Or.inl fun vs' heq => absurd heq (by simp)

namespace Visit

variable {v : Visit σ}

theorem ending_of_returns (hruns : v.line.Runs registry v.vars v.world v.ending w')
    (h : v.Returns registry value) :
    v.ending = .ok (Interpreter.bindOutput v.vars v.line.output value) := by
  obtain ⟨w'', hruns'⟩ := h.runs
  -- the rules leave a line one ending
  have heq := (Interpreter.runLine_eq_of_runs hruns).symm.trans
    (Interpreter.runLine_eq_of_runs hruns')
  exact (Prod.mk.inj heq).1

theorem varsAfter_of_returns (hruns : v.line.Runs registry v.vars v.world v.ending w')
    (h : v.Returns registry value) :
    v.varsAfter = Interpreter.bindOutput v.vars v.line.output value := by
  unfold varsAfter
  rw [ending_of_returns hruns h]

theorem varsAfter_of_not_returns (hruns : v.line.Runs registry v.vars v.world v.ending w')
    (h : ∀ value, ¬v.Returns registry value) : v.varsAfter = v.vars := by
  have hkept := hruns.eq_or_returns.resolve_right fun ⟨value, hvalue⟩ => h value hvalue
  unfold varsAfter
  split
  · next vs' hending => exact hkept vs' hending
  · rfl

/-- A line that fails leaves the variables as it found them. -/
theorem varsAfter_of_fault {fault : KeywordFault} (h : v.fault? = some fault) :
    v.varsAfter = v.vars := by
  unfold fault? at h
  unfold varsAfter
  split at h
  · exact absurd h (by simp)
  · rfl

end Visit

end

theorem Interpreter.get?_bindOutput (vs : Variables) (output : Option String)
    (value : RemoteValue) (name : String) :
    (bindOutput vs output value).slots.get? name
      = if output = some name then some (some value) else vs.slots.get? name := by
  cases output with
  | none => rw [if_neg (by simp)]; rfl
  | some k =>
    show (vs.slots.insert k (some value)).get? name = _
    rw [Table.get?_insert]
    by_cases h : name = k
    · rw [if_pos h, if_pos (by rw [h])]
    · rw [if_neg h, if_neg fun heq => h (Option.some.inj heq).symm]

/-! ## The variables after some lines -/

namespace Interpreter

section

variable {notify : Event → σ → σ} {registry : Registry (StateM σ)} {event : EventKind → Event}
  {lines : List Line} {vs : Variables} {w : σ}

/-- A variable for which no line returns a value is what it was. -/
theorem get?_walk_of_not_returns {name : String}
    (h : ∀ v ∈ (walk notify registry event lines vs w).1, v.line.output = some name →
      ∀ value, ¬v.Returns registry value) :
    (walk notify registry event lines vs w).2.1.slots.get? name = vs.slots.get? name := by
  induction lines generalizing vs w with
  | nil => rfl
  | cons line lines ih =>
    rw [walk] at h ⊢
    dsimp only at h ⊢
    obtain ⟨hfirst, hrest⟩ := List.forall_mem_cons.1 h
    obtain ⟨w', hruns⟩ := runs_visitLine notify registry event line vs w
    rw [ih hrest]
    by_cases hreturns : ∃ value, (visitLine notify registry event line vs w).1.Returns registry value
    · -- the line binds another name, or none
      obtain ⟨value, hvalue⟩ := hreturns
      have hother : line.output ≠ some name := fun heq => hfirst heq value hvalue
      rw [Visit.varsAfter_of_returns hruns hvalue, get?_bindOutput]
      exact if_neg hother
    · rw [Visit.varsAfter_of_not_returns hruns fun value hvalue => hreturns ⟨value, hvalue⟩]
      rfl

/-- The last value that a line returns for a variable is its value. -/
theorem get?_walk_of_returns {name : String} {value : RemoteValue} {before rest : List (Visit σ)}
    {v : Visit σ} (hvisits : (walk notify registry event lines vs w).1 = before ++ v :: rest)
    (houtput : v.line.output = some name) (hvalue : v.Returns registry value)
    (hlast : ∀ u ∈ rest, u.line.output = some name → ∀ value, ¬u.Returns registry value) :
    (walk notify registry event lines vs w).2.1.slots.get? name = some (some value) := by
  -- on the visits before it, line by line
  induction before generalizing lines vs w with
  | nil =>
    cases lines with
    | nil => exact absurd hvisits (by simp [walk])
    | cons line lines =>
      rw [walk] at hvisits ⊢
      dsimp only at hvisits ⊢
      obtain ⟨rfl, rfl⟩ := List.cons.inj hvisits
      obtain ⟨w', hruns⟩ := runs_visitLine notify registry event line vs w
      rw [get?_walk_of_not_returns hlast, Visit.varsAfter_of_returns hruns hvalue,
        get?_bindOutput, if_pos houtput]
  | cons u before ih =>
    cases lines with
    | nil => exact absurd hvisits (by simp [walk])
    | cons line lines =>
      rw [walk] at hvisits ⊢
      exact ih (List.cons.inj hvisits).2

/-- What a line finds is what the lines before it have left. -/
theorem vars_of_walk {i : Nat} {v : Visit σ}
    (hv : (walk notify registry event lines vs w).1[i]? = some v) :
    v.vars = (walk notify registry event (lines.take i) vs w).2.1 := by
  induction lines generalizing vs w i with
  | nil => exact absurd hv (by simp [walk])
  | cons line lines ih =>
    rw [walk] at hv
    cases i with
    | zero =>
      cases hv
      rfl
    | succ i => exact ih hv

/-! ## A failing line left out -/

/-- A walk without one of its failing lines comes to the same for every other line, and leaves the
same variables, if no keyword looks at the world. -/
theorem walk_without
    (hblind : ∀ name call, registry.get? name = some call → Keyword.Blind call)
    {front back : List Line} {line : Line} {v : Visit σ} {fault : KeywordFault}
    (hv : (walk notify registry event (front ++ line :: back) vs w).1[front.length]? = some v)
    (hfault : v.fault? = some fault) (notify' : Event → σ → σ) (event' : EventKind → Event)
    (w' : σ) :
    let whole := walk notify registry event (front ++ line :: back) vs w
    let without := walk notify' registry event' (front ++ back) vs w'
    without.1.map (·.result) = (whole.1.map (·.result)).eraseIdx front.length ∧
      without.2.1 = whole.2.1 := by
  let first := walk notify registry event front vs w
  let visit := visitLine notify registry event line first.2.1 first.2.2
  have hwhole : walk notify registry event (front ++ line :: back) vs w
      = (first.1 ++ visit.1 :: (walk notify registry event back visit.1.varsAfter visit.2).1,
          (walk notify registry event back visit.1.varsAfter visit.2).2) :=
    walk_append notify registry event front (line :: back) vs w
  have hlength : first.1.length = front.length := by
    rw [← List.length_map (·.line), walk_lines]
  -- the failing line hands on the variables that it found
  have hvisit : visit.1 = v := by
    rw [hwhole] at hv
    dsimp only at hv
    rw [List.getElem?_append_right (Nat.le_of_eq hlength), hlength, Nat.sub_self] at hv
    exact Option.some.inj hv
  have hafter : visit.1.varsAfter = first.2.1 := by
    rw [Visit.varsAfter_of_fault (hvisit ▸ hfault)]
    rfl
  obtain ⟨hfront, hfrontVars⟩ :=
    results_walk_of_blind hblind notify' notify event' event front vs w' w
  dsimp only
  rw [walk_append, hwhole, hafter]
  dsimp only
  rw [hfrontVars]
  obtain ⟨hback, hbackVars⟩ := results_walk_of_blind hblind notify' notify event' event back
    first.2.1 (walk notify' registry event' front vs w').2.2 visit.2
  have hat : (first.1.map (·.result)).length = front.length := by rw [List.length_map, hlength]
  refine ⟨?_, hbackVars⟩
  rw [List.map_append, List.map_append, List.map_cons, hfront, hback, ← hat,
    List.eraseIdx_append_of_length_le (Nat.le_refl _), Nat.sub_self]
  rfl

end

/-! ## Runs -/

/-- The interpreter with other lines loaded, under the same declared variables. -/
def withLines (it : Interpreter (StateM σ)) (lines : List Line) : Interpreter (StateM σ) :=
  { it with loaded := lines.reverse }

@[simp] theorem lines_withLines (it : Interpreter (StateM σ)) (lines : List Line) :
    (it.withLines lines).lines = lines :=
  List.reverse_reverse lines

/-- Nothing but the variables is different after a run. -/
theorem left_record (it : Interpreter (StateM σ)) (deviceId : String) (notify : Event → σ → σ)
    (w : σ) :
    let event := fun kind => Event.plain kind deviceId it.caseId
    (it.record deviceId notify w).1.1.1
      = { it with
          vars := (walk notify it.registry event it.lines it.vars (notify (event .caseStart) w)).2.1
        } := by
  rw [record_eq_walk]

/-- **A line that fails changes no variable.** A run changes nothing of its interpreter but the
values of variables. Each line finds the variables as the lines before it leave them when they are
run alone. In the end a variable has the value of the last line that returned one for it, or the one
that it had if no line did; a line that returns a value succeeds. So if no keyword looks at the
world, a failing line may be left out, with its variable still declared: in a run from any world,
every other line finds and comes to the same, and the same variables are left. -/
theorem failing_lines_bind_nothing (it : Interpreter (StateM σ)) (deviceId : String)
    (notify : Event → σ → σ) (w : σ) :
    let visits := it.visits deviceId notify w
    let left := (it.record deviceId notify w).1.1.1
    left = { it with vars := left.vars } ∧
    visits.map (·.line) = it.lines ∧
    (∀ (i : Nat) (v : Visit σ), visits[i]? = some v →
      v.vars = ((it.withLines (it.lines.take i)).record deviceId notify w).1.1.1.vars ∧
        ∃ w', v.line.Runs it.registry v.vars v.world v.ending w') ∧
    (∀ v ∈ visits, ∀ value, v.Returns it.registry value → v.fault? = none) ∧
    (∀ name, (∀ v ∈ visits, v.line.output = some name → ∀ value, ¬v.Returns it.registry value) →
      left.vars.slots.get? name = it.vars.slots.get? name) ∧
    (∀ before v rest name value, visits = before ++ v :: rest → v.line.output = some name →
      v.Returns it.registry value →
      (∀ u ∈ rest, u.line.output = some name → ∀ value, ¬u.Returns it.registry value) →
        left.vars.slots.get? name = some (some value)) ∧
    ((∀ name call, it.registry.get? name = some call → Keyword.Blind call) →
      ∀ front line back v fault, it.lines = front ++ line :: back →
        visits[front.length]? = some v → v.fault? = some fault →
          ∀ deviceId' notify' w',
            let without := it.withLines (front ++ back)
            (without.visits deviceId' notify' w').map (·.result)
                = (visits.map (·.result)).eraseIdx front.length ∧
              (without.record deviceId' notify' w').1.1.1.vars = left.vars) := by
  intro visits left
  have hleft := left_record it deviceId notify w
  have hvars : left.vars = _ := congrArg Interpreter.vars hleft
  refine ⟨?_, walk_lines .., fun i v hv => ⟨?_, runs_of_mem_walk _ _ _ (List.mem_of_getElem? hv)⟩,
    fun v hv value hvalue => ?_, fun name hname => ?_,
    fun before v rest name value hvisits houtput hvalue hlast => ?_, ?_⟩
  · rw [hvars]
    exact hleft
  · rw [left_record]
    dsimp only
    rw [lines_withLines]
    exact vars_of_walk hv
  · obtain ⟨w', hruns⟩ := runs_of_mem_walk _ _ _ hv
    unfold Visit.fault?
    rw [Visit.ending_of_returns hruns hvalue]
  · rw [hvars]
    exact get?_walk_of_not_returns hname
  · rw [hvars]
    exact get?_walk_of_returns hvisits houtput hvalue hlast
  · intro hblind front line back v fault hlines hv hfault deviceId' notify' w' without
    rw [left_record without, hvars]
    have hvisits : visits = (walk notify it.registry
        (fun kind => Event.plain kind deviceId it.caseId) (front ++ line :: back) it.vars
        (notify (.plain .caseStart deviceId it.caseId) w)).1 := by
      rw [← hlines]
      rfl
    rw [hvisits] at hv ⊢
    rw [hlines]
    have hwithout := walk_without hblind hv hfault notify'
      (fun kind => Event.plain kind deviceId' it.caseId)
      (notify' (.plain .caseStart deviceId' it.caseId) w')
    rw [← lines_withLines it (front ++ back)] at hwithout
    exact hwithout

end Interpreter

end KeywordRunner.Script
