import KeywordRunner.Proofs.Server.Steps

/-!
# Proofs.Server.Waits — what becomes of a wait for a device

Waits go on by themselves; all that others do to them is to wake those that have subscribed and to
let their time run out. What follows from that holds wherever there are waits around a directory,
so it is stated of any system whose steps change the waits by these rules.

* **`Waiting.Changes`** — the rules.
* **`Changes.found_none`** — a wait that ends with nothing has just looked a last time.
* **`Awake`** — nobody sleeps through a registration; **`Awake.step`**, **`Awake.announce`**.
* **`ended_with_nothing`** — the first of these for whole runs.
-/

namespace KeywordRunner.Server

/-- What happens to the waits in a step. -/
inductive Waiting where
  /-- Whatever happens, it does not concern them. -/
  | idle
  /-- A registration is announced. -/
  | announce
  | await (deviceId : String)
  | look (wait : Nat)
  /-- The time of a wait is over. -/
  | expire (wait : Nat)

/-- How the waits change in a step that begins with this station. -/
inductive Waiting.Changes (st : Station) (ws : List Wait) : Waiting → List Wait → Prop where
  | idle : Changes st ws .idle ws
  | announce : Changes st ws .announce (ws.map Wait.wake)
  | await (deviceId : String) : Changes st ws (.await deviceId) (ws ++ [.start deviceId])
  | look {i : Nat} {w w' : Wait} (hget : ws[i]? = some w) (hnext : w.next st = some w') :
      Changes st ws (.look i) (ws.set i w')
  | expire {i : Nat} {w : Wait} (hget : ws[i]? = some w) :
      Changes st ws (.expire i) (ws.set i { w with expired := true })

/-! ## One wait -/

namespace Wait

variable {st : Station} {w w' : Wait}

@[simp] theorem deviceId_wake (w : Wait) : w.wake.deviceId = w.deviceId := by
  unfold wake
  split <;> rfl

@[simp] theorem expired_wake (w : Wait) : w.wake.expired = w.expired := by
  unfold wake
  split <;> rfl

/-- Who was woken is not asleep. -/
theorem stage_wake_ne (w : Wait) : w.wake.stage ≠ .parked false := by
  obtain ⟨deviceId, expired, stage⟩ := w
  cases stage <;> simp [wake]

/-- Waking neither begins nor ends a last look. -/
theorem stage_of_wake {stage : WaitStage} (h : w.wake.stage = stage)
    (hlate : stage = .lastLook ∨ ∃ found, stage = .ended found) : w.stage = stage := by
  obtain ⟨deviceId, expired, old⟩ := w
  subst h
  cases old with
  | looking _ | parked _ => simp [wake] at hlate
  | subscribing | lastLook | ended _ => rfl

/-- What a step of a wait leads to. -/
inductive Goes (st : Station) (w : Wait) : Wait → Prop where
  | subscribe (hstage : w.stage = .subscribing) : Goes st w { w with stage := .looking false }
  | find {woken : Bool} {key : SessionKey} (hstage : w.stage = .looking woken)
      (hfound : st.lookup? w.deviceId = some key) : Goes st w { w with stage := .ended (some key) }
  | park {woken : Bool} (hstage : w.stage = .looking woken)
      (hnone : st.lookup? w.deviceId = none) : Goes st w { w with stage := .parked woken }
  | again (hstage : w.stage = .parked true) : Goes st w { w with stage := .subscribing }
  | giveUp (hstage : w.stage = .parked false) (hexpired : w.expired = true) :
      Goes st w { w with stage := .lastLook }
  | last (hstage : w.stage = .lastLook) :
      Goes st w { w with stage := .ended (st.lookup? w.deviceId) }

theorem goes_of_next (h : w.next st = some w') : w.Goes st w' := by
  unfold next at h
  cases hstage : w.stage with
  | subscribing =>
    rw [hstage] at h
    cases h
    exact .subscribe hstage
  | looking woken =>
    rw [hstage] at h
    dsimp only at h
    cases hlookup : st.lookup? w.deviceId with
    | none =>
      rw [hlookup] at h
      cases h
      exact .park hstage hlookup
    | some key =>
      rw [hlookup] at h
      cases h
      exact .find hstage hlookup
  | parked woken =>
    rw [hstage] at h
    cases woken with
    | true =>
      cases h
      exact .again hstage
    | false =>
      by_cases hexpired : w.expired = true
      · simp only [hexpired, Bool.false_eq_true, if_false, if_true] at h
        rw [← hexpired] at h
        cases h
        exact .giveUp hstage hexpired
      · exact absurd h (by simp [hexpired])
  | lastLook =>
    rw [hstage] at h
    cases h
    exact .last hstage
  | ended found =>
    rw [hstage] at h
    exact absurd h (by simp)

namespace Goes

variable (h : w.Goes st w')

include h

theorem deviceId_eq : w'.deviceId = w.deviceId := by
  cases h <;> rfl

theorem expired_eq : w'.expired = w.expired := by
  cases h <;> rfl

/-- Who has just fallen asleep has found nothing. -/
theorem lookup?_of_parked (hstage : w'.stage = .parked false) :
    st.lookup? w'.deviceId = none := by
  cases h with
  | park _ hnone => exact hnone
  | subscribe _ | find _ _ | again _ | giveUp _ _ | last _ => exact absurd hstage (by simp)

/-- Who has just found nothing for good has looked a last time. -/
theorem last_of_ended (hstage : w'.stage = .ended none) :
    w.stage = .lastLook ∧ st.lookup? w.deviceId = none := by
  cases h with
  | last hlast => exact ⟨hlast, by simpa using hstage⟩
  | subscribe _ | find _ _ | park _ _ | again _ | giveUp _ _ => exact absurd hstage (by simp)

/-- Only a wait whose time is over looks a last time. -/
theorem expired_of_lastLook (hstage : w'.stage = .lastLook) : w'.expired = true := by
  cases h with
  | giveUp _ hexpired => exact hexpired
  | subscribe _ | find _ _ | park _ _ | again _ | last _ => exact absurd hstage (by simp)

end Goes

end Wait

/-! ## All waits -/

namespace Waiting.Changes

variable {st : Station} {ws ws' : List Wait} {event : Waiting} {i : Nat} {w' : Wait}

/-- A wait after a step: it is as before or has been woken, it has just begun, its time has run out,
or it has moved on. -/
theorem getElem?_cases (h : event.Changes st ws ws') (hget : ws'[i]? = some w') :
    (∃ w, ws[i]? = some w ∧ (w' = w ∨ w' = w.wake)) ∨
    (∃ deviceId, w' = .start deviceId) ∨
    (∃ w, event = .expire i ∧ ws[i]? = some w ∧ w' = { w with expired := true }) ∨
    ∃ w, event = .look i ∧ ws[i]? = some w ∧ w.Goes st w' := by
  cases h with
  | idle => exact Or.inl ⟨w', hget, Or.inl rfl⟩
  | announce =>
    rw [List.getElem?_map] at hget
    obtain ⟨w, hw, rfl⟩ := Option.map_eq_some_iff.1 hget
    exact Or.inl ⟨w, hw, Or.inr rfl⟩
  | await deviceId =>
    rcases Traffic.getElem?_append_cases hget with hold | ⟨_, rfl⟩
    · exact Or.inl ⟨w', hold, Or.inl rfl⟩
    · exact Or.inr (Or.inl ⟨deviceId, rfl⟩)
  | look hw hnext =>
    rcases Traffic.getElem?_set_cases hw hget with ⟨rfl, rfl⟩ | ⟨_, hold⟩
    · exact Or.inr (Or.inr (Or.inr ⟨_, rfl, hw, Wait.goes_of_next hnext⟩))
    · exact Or.inl ⟨w', hold, Or.inl rfl⟩
  | expire hw =>
    rcases Traffic.getElem?_set_cases hw hget with ⟨rfl, rfl⟩ | ⟨_, hold⟩
    · exact Or.inr (Or.inr (Or.inl ⟨_, rfl, hw, rfl⟩))
    · exact Or.inl ⟨w', hold, Or.inl rfl⟩

/-- A wait ends with nothing by looking a last time and finding nothing. -/
theorem found_none (h : event.Changes st ws ws') (hget : ws'[i]? = some w')
    (hstage : w'.stage = .ended none) :
    (∃ w, ws[i]? = some w ∧ w.deviceId = w'.deviceId ∧ w.stage = .ended none) ∨
    (event = .look i ∧ ∃ w, ws[i]? = some w ∧ w.deviceId = w'.deviceId ∧ w.stage = .lastLook ∧
      st.lookup? w'.deviceId = none) := by
  rcases h.getElem?_cases hget with
    ⟨w, hw, rfl | rfl⟩ | ⟨deviceId, rfl⟩ | ⟨w, _, hw, rfl⟩ | ⟨w, hevent, hw, hgoes⟩
  · exact Or.inl ⟨w', hw, rfl, hstage⟩
  · have hold := Wait.stage_of_wake hstage (Or.inr ⟨none, rfl⟩)
    exact Or.inl ⟨w, hw, (Wait.deviceId_wake w).symm, hold⟩
  · exact absurd hstage (by simp [Wait.start])
  · exact Or.inl ⟨w, hw, rfl, hstage⟩
  · obtain ⟨hlast, hnone⟩ := hgoes.last_of_ended hstage
    refine Or.inr ⟨hevent, w, hw, hgoes.deviceId_eq.symm, hlast, ?_⟩
    rw [hgoes.deviceId_eq]
    exact hnone

/-- The time of a wait only runs out when it does. -/
theorem expired_cases (h : event.Changes st ws ws') (hget : ws'[i]? = some w')
    (hexpired : w'.expired = true) :
    (∃ w, ws[i]? = some w ∧ w.expired = true) ∨ event = .expire i := by
  rcases h.getElem?_cases hget with
    ⟨w, hw, rfl | rfl⟩ | ⟨deviceId, rfl⟩ | ⟨w, hevent, _, _⟩ | ⟨w, _, hw, hgoes⟩
  · exact Or.inl ⟨w', hw, hexpired⟩
  · exact Or.inl ⟨w, hw, (Wait.expired_wake w).symm.trans hexpired⟩
  · exact absurd hexpired (by simp [Wait.start])
  · exact Or.inr hevent
  · exact Or.inl ⟨w, hw, hgoes.expired_eq.symm.trans hexpired⟩

/-- Whoever looks a last time has run out of time. -/
theorem expired_of_lastLook (h : event.Changes st ws ws')
    (hold : ∀ (i : Nat) (w : Wait), ws[i]? = some w → w.stage = .lastLook → w.expired = true)
    (hget : ws'[i]? = some w') (hstage : w'.stage = .lastLook) : w'.expired = true := by
  rcases h.getElem?_cases hget with
    ⟨w, hw, rfl | rfl⟩ | ⟨deviceId, rfl⟩ | ⟨w, _, hw, rfl⟩ | ⟨w, _, hw, hgoes⟩
  · exact hold i w' hw hstage
  · rw [Wait.expired_wake]
    exact hold i w hw (Wait.stage_of_wake hstage (Or.inl rfl))
  · exact absurd hstage (by simp [Wait.start])
  · rfl
  · exact hgoes.expired_of_lastLook hstage

end Waiting.Changes

/-! ## Nobody sleeps through a registration

`announcing` tells of which entries of the directory, a device id and a session, the registration
has not been announced yet. -/

section Awake

variable {announcing announcing' : String → SessionKey → Prop} {st st' : Station}
  {ws ws' : List Wait} {event : Waiting}

/-- Whoever sleeps without having been woken waits for a device that is not registered, or whose
registration has yet to be announced. -/
def Awake (announcing : String → SessionKey → Prop) (st : Station) (ws : List Wait) : Prop :=
  ∀ w ∈ ws, w.stage = .parked false → ∀ key, st.lookup? w.deviceId = some key →
    announcing w.deviceId key

/-- An announcement wakes everyone who sleeps. -/
theorem Awake.announce (announcing : String → SessionKey → Prop) (st : Station) (ws : List Wait) :
    Awake announcing st (ws.map Wait.wake) := by
  intro w hw hstage
  obtain ⟨w, _, rfl⟩ := List.mem_map.1 hw
  exact absurd hstage w.stage_wake_ne

/-- The directory changes, but no entry is lost sight of: it is yet to be announced, or it has been
there before and is to be announced if it was. -/
theorem Awake.enter (h : Awake announcing st ws)
    (hentry : ∀ d key, st'.lookup? d = some key →
      announcing' d key ∨ st.lookup? d = some key ∧ (announcing d key → announcing' d key)) :
    Awake announcing' st' ws := by
  intro w hw hstage key hkey
  rcases hentry w.deviceId key hkey with hnew | ⟨hold, hkeep⟩
  · exact hnew
  · exact hkeep (h w hw hstage key hold)

/-- Waits go on: whoever falls asleep has just found nothing. -/
theorem Awake.changes (h : Awake announcing st ws) (hchanges : event.Changes st ws ws') :
    Awake announcing st ws' := by
  intro w' hw' hstage key hkey
  obtain ⟨i, hget⟩ := List.mem_iff_getElem?.1 hw'
  rcases hchanges.getElem?_cases hget with
    ⟨w, hw, rfl | rfl⟩ | ⟨deviceId, rfl⟩ | ⟨w, _, hw, rfl⟩ | ⟨w, _, hw, hgoes⟩
  · exact h w' (List.mem_of_getElem? hw) hstage key hkey
  · exact absurd hstage w.stage_wake_ne
  · exact absurd hstage (by simp [Wait.start])
  · exact h w (List.mem_of_getElem? hw) hstage key hkey
  · exact absurd (hkey.symm.trans (hgoes.lookup?_of_parked hstage)) (by simp)

end Awake

/-! ## Runs of any system with waits -/

section Runs

variable {σ α : Type} {step : σ → α → Option σ} {s s' : σ} {acts : List α} {i : Nat} {w : Wait}

/-- What each step keeps, a run keeps. -/
theorem holds_of_run {P : σ → Prop}
    (hstep : ∀ {s : σ} {act : α} {s' : σ}, P s → step s act = some s' → P s') (hstart : P s)
    (hrun : acts.foldlM step s = some s') : P s' := by
  induction acts generalizing s with
  | nil =>
    cases hrun
    exact hstart
  | cons act acts ih =>
    rw [List.foldlM_cons] at hrun
    obtain ⟨s₁, hfirst, hrest⟩ := Option.bind_eq_some_iff.1 hrun
    exact ih (hstep hstart hfirst) hrest

/-- What does not hold at first and holds at last begins to hold in some step. -/
theorem exists_beginning {P : σ → Prop} (hrun : acts.foldlM step s = some s') (hfirst : ¬P s)
    (hlast : P s') : ∃ before act after s₁ s₂, acts = before ++ act :: after ∧
      before.foldlM step s = some s₁ ∧ step s₁ act = some s₂ ∧ ¬P s₁ ∧ P s₂ := by
  induction acts generalizing s with
  | nil =>
    cases hrun
    exact absurd hlast hfirst
  | cons act acts ih =>
    rw [List.foldlM_cons] at hrun
    obtain ⟨s₁, hstep, hrest⟩ := Option.bind_eq_some_iff.1 hrun
    by_cases hnow : P s₁
    · exact ⟨[], act, acts, s, s₁, rfl, rfl, hstep, hfirst, hnow⟩
    · obtain ⟨before, act', after, s₂, s₃, rfl, hbefore, hstep', hnot, hholds⟩ := ih hrest hnow
      refine ⟨act :: before, act', after, s₂, s₃, rfl, ?_, hstep', hnot, hholds⟩
      rw [List.foldlM_cons, hstep]
      exact hbefore

variable (station : σ → Station) (waits : σ → List Wait) (event : σ → α → Waiting)
  (hchanges : ∀ {s : σ} {act : α} {s' : σ}, step s act = some s' →
  (event s act).Changes (station s) (waits s) (waits s'))

include hchanges

/-- Whoever looks a last time has run out of time, at any moment. -/
theorem expired_of_run_of_lastLook (hstart : waits s = []) (hrun : acts.foldlM step s = some s') :
    ∀ (i : Nat) (w : Wait), (waits s')[i]? = some w → w.stage = .lastLook → w.expired = true := by
  refine holds_of_run (P := fun s => ∀ (i : Nat) (w : Wait), (waits s)[i]? = some w →
    w.stage = .lastLook → w.expired = true) (fun hold hstep i w => ?_) (fun i w hget => ?_) hrun
  · exact (hchanges hstep).expired_of_lastLook hold
  · rw [hstart] at hget
    exact absurd hget (by simp)

/-- **A wait ends with nothing only by its last look**, at a moment when its time has run out and
its device is not registered. -/
theorem ended_with_nothing (hstart : waits s = []) (hrun : acts.foldlM step s = some s')
    (hget : (waits s')[i]? = some w) (hstage : w.stage = .ended none) :
    ∃ before act after s₁ w₁, acts = before ++ act :: after ∧ before.foldlM step s = some s₁ ∧
      event s₁ act = .look i ∧ (waits s₁)[i]? = some w₁ ∧ w₁.deviceId = w.deviceId ∧
      w₁.stage = .lastLook ∧ (station s₁).lookup? w.deviceId = none ∧
      ∃ act' ∈ before, ∃ s₂, event s₂ act' = .expire i := by
  have hnobody : ∀ P : Wait → Prop, ¬∃ w, (waits s)[i]? = some w ∧ P w := by
    rintro P ⟨w, hw, _⟩
    rw [hstart] at hw
    exact absurd hw (by simp)
  obtain ⟨before, act, after, s₁, s₂, hacts, hbefore, hstep, hnot, w', hw', hdevice, hended⟩ :=
    exists_beginning (P := fun s => ∃ w', (waits s)[i]? = some w' ∧ w'.deviceId = w.deviceId ∧
      w'.stage = .ended none) hrun (hnobody _) ⟨w, hget, rfl, hstage⟩
  rcases (hchanges hstep).found_none hw' hended with
    ⟨w₁, hw₁, hsame, hended₁⟩ | ⟨hevent, w₁, hw₁, hsame, hlast, hnone⟩
  · exact absurd ⟨w₁, hw₁, hsame.trans hdevice, hended₁⟩ hnot
  · -- its time has run out, and that happened in some step before
    have hexpired :=
      expired_of_run_of_lastLook station waits event hchanges hstart hbefore i w₁ hw₁ hlast
    obtain ⟨earlier, act', later, s₃, s₄, hwhole, _, hstep', hnot', w₂, hw₂, hexpired₂⟩ :=
      exists_beginning (P := fun s => ∃ w', (waits s)[i]? = some w' ∧ w'.expired = true) hbefore
        (hnobody _) ⟨w₁, hw₁, hexpired⟩
    have hevent' : event s₃ act' = .expire i :=
      ((hchanges hstep').expired_cases hw₂ hexpired₂).resolve_left hnot'
    have hmem : act' ∈ before := by
      rw [hwhole]
      exact List.mem_append_right _ List.mem_cons_self
    exact ⟨before, act, after, s₁, w₁, hacts, hbefore, hevent, hw₁, hsame.trans hdevice, hlast,
      hdevice ▸ hnone, act', hmem, s₃, hevent'⟩

end Runs

end KeywordRunner.Server
