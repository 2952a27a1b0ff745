import KeywordRunner.Proofs.Session.Ids

/-!
# Proofs.Session.Correlation — every answer reaches the call it answers

A device may answer late, twice, in any order or not at all; it only never makes an id up. Then an
answer that a caller takes is the one to its own call.

* **`Receipt`** — an answer that some caller has taken, at the moment it takes it.
* **`Callers.onlyAnswers`** — what the device is trusted with.
* **`Correlated.finished_cases`** — how a call can end.
* **`Callers.Dense`** — the invariant of the ids when no caller is given up.
* **`answers_correlate`** — what follows for any number of callers and any order of steps.
-/

namespace KeywordRunner

open Wire (Message)

/-! ## Answers taken, answers sent -/

/-- An answer that a caller takes: its place among the callers, its id, and the answer. -/
structure Receipt where
  caller : Nat
  id : UInt64
  answer : Message

namespace Callers

/-- The answer that is taken by an act, if it is one that takes an answer. -/
def receipt? (c : Callers) : Act → Option Receipt
  | .proceed i =>
    match (c.callers[i]?).map Caller.stage, c.session.inbox with
    | some (.waiting id), m :: _ => if Session.answers id m then some ⟨i, id, m⟩ else none
    | _, _ => none
  | _ => none

/-- The answers that are taken in a run. -/
def receipts (c : Callers) : List Act → List Receipt
  | [] => []
  | act :: acts =>
    (c.receipt? act).toList ++
      match c.step act with
      | some c' => c'.receipts acts
      | none => []

/-- Whether the device sends nothing but answers in a run. -/
def onlyAnswers (c : Callers) : List Act → Bool
  | [] => true
  | act :: acts =>
    act.isAnswer c.session &&
      match c.step act with
      | some c' => c'.onlyAnswers acts
      | none => true

variable {c c' : Callers} {act : Act} {acts : List Act}

/-! ## Runs -/

/-- A run in which the device sends nothing but answers and ids do not run out. -/
inductive Trusted : Callers → List Act → Callers → Prop where
  | nil (c : Callers) : Trusted c [] c
  | cons {c c₁ c' : Callers} {act : Act} {acts : List Act} (hdevice : act.isAnswer c.session = true)
      (hsize : c.callers.length < UInt64.size) (hstep : c.step act = some c₁)
      (hrun : Trusted c₁ acts c') : Trusted c (act :: acts) c'

theorem length_callers_le_of_run (hrun : c.run acts = some c') :
    c.callers.length ≤ c'.callers.length := by
  unfold run at hrun
  induction acts generalizing c with
  | nil =>
    cases hrun
    exact Nat.le_refl _
  | cons act acts ih =>
    rw [List.foldlM_cons] at hrun
    obtain ⟨c₁, hstep, hrest⟩ := Option.bind_eq_some_iff.1 hrun
    exact Nat.le_trans (length_callers_le (steps_of_step hstep)) (ih hrest)

theorem trusted_of_run (hdevice : c.onlyAnswers acts = true) (hrun : c.run acts = some c')
    (hsize : c'.callers.length < UInt64.size) : c.Trusted acts c' := by
  induction acts generalizing c with
  | nil =>
    cases hrun
    exact .nil _
  | cons act acts ih =>
    -- there are no more callers now than at the end
    have hlength := length_callers_le_of_run hrun
    unfold run at hrun
    rw [List.foldlM_cons] at hrun
    obtain ⟨c₁, hstep, hrest⟩ := Option.bind_eq_some_iff.1 hrun
    unfold onlyAnswers at hdevice
    rw [hstep] at hdevice
    obtain ⟨hact, hacts⟩ := Bool.and_eq_true_iff.1 hdevice
    exact .cons hact (Nat.lt_of_le_of_lt hlength hsize) hstep (ih hacts hrest)

theorem Correlated.run (h : c.Correlated) (hrun : c.Trusted acts c') : c'.Correlated := by
  induction hrun with
  | nil c => exact h
  | cons hdevice hsize hstep _ ih => exact ih (h.step (steps_of_step hstep) hdevice hsize)

/-! ## Answers taken in a run -/

theorem receipt?_cases {r : Receipt} (h : c.receipt? act = some r) :
    (∃ caller, c.callers[r.caller]? = some caller ∧ caller.stage = .waiting r.id) ∧
      r.answer ∈ c.session.inbox ∧ Session.answers r.id r.answer = true := by
  unfold receipt? at h
  split at h
  · next i =>
    split at h
    · next id m ms hstage hinbox =>
      obtain ⟨caller, hget, hwaiting⟩ := Option.map_eq_some_iff.1 hstage
      split at h
      · next hanswer =>
        cases h
        refine ⟨⟨caller, hget, hwaiting⟩, ?_, hanswer⟩
        rw [hinbox]
        exact List.mem_cons_self
      · exact absurd h (by simp)
    · exact absurd h (by simp)
  · exact absurd h (by simp)

/-- An answer that is taken bears the id of the caller that takes it. -/
theorem Correlated.id_of_receipt (h : c.Correlated) {r : Receipt} (hr : c.receipt? act = some r) :
    r.answer.id = some r.id := by
  obtain ⟨⟨caller, hget, hwaiting⟩, hmem, hanswer⟩ := receipt?_cases hr
  -- whoever waits has the latest id of all
  obtain ⟨hlast, _⟩ := (h.callers r.caller caller hget).waiting r.id hwaiting
  rw [hlast] at hanswer ⊢
  exact h.session.id_of_answers hmem hanswer

theorem receipts_cons {c₁ : Callers} (hstep : c.step act = some c₁) :
    c.receipts (act :: acts) = (c.receipt? act).toList ++ c₁.receipts acts := by
  rw [receipts, hstep]

theorem Correlated.id_of_mem_receipts (h : c.Correlated) (hrun : c.Trusted acts c') :
    ∀ r ∈ c.receipts acts, r.answer.id = some r.id := by
  induction hrun with
  | nil c => exact fun _ hr => absurd hr List.not_mem_nil
  | cons hdevice hsize hstep _ ih =>
    intro r hr
    rw [receipts_cons hstep] at hr
    rcases List.mem_append.1 hr with hr | hr
    · exact h.id_of_receipt (Option.mem_toList.1 hr)
    · exact ih (h.step (steps_of_step hstep) hdevice hsize) r hr

/-! ## What becomes of a call -/

/-- A call once made stays in the queue. -/
theorem calls_subset (hstep : c.Steps act c') : ∀ m ∈ c.session.calls, m ∈ c'.session.calls := by
  intro m hm
  cases hstep with
  | @proceed i caller s' stage' hget hmove =>
    obtain ⟨hmem, hcall⟩ := List.mem_filter.1 hm
    refine List.mem_filter.2 ⟨?_, hcall⟩
    show m ∈ s'.outbox
    rcases hmove.outbox_cases with hsame | ⟨id, _, _, hposted⟩
    · rw [hsame]
      exact hmem
    · rw [hposted]
      exact List.mem_append_left _ hmem
  | deliver d =>
    show m ∈ (c.session.deliver d).calls
    rw [Session.calls_congr (deliver_frame c.session d).2.1]
    exact hm
  | join r => exact hm
  | timeOut _ _ => exact hm
  | cancel _ _ => exact hm
  | close => exact hm
  | dropWriter => exact hm

theorem calls_subset_of_trusted (hrun : c.Trusted acts c') :
    ∀ m ∈ c.session.calls, m ∈ c'.session.calls := by
  induction hrun with
  | nil c => exact fun _ hm => hm
  | cons _ _ hstep _ ih => exact fun m hm => ih m (calls_subset (steps_of_step hstep) m hm)

/-- How a caller got over its call in one step: it has been over before, it takes an answer, or
it fails for a reason of its own. -/
theorem finished_cases {j : Nat} {b : Caller} {id : Option UInt64}
    {outcome : Except CallFault Message} (hstep : c.Steps act c') (hget : c'.callers[j]? = some b)
    (hover : b.stage = .finished id outcome) :
    c.callers[j]? = some b ∨
    (∃ r a, c.receipt? act = some r ∧ c.callers[j]? = some a ∧ a.stage = .waiting r.id ∧
      a.request = b.request ∧ r.caller = j ∧ id = some r.id ∧
      outcome = Session.outcomeOf b.request.name r.answer) ∨
    ∃ fault, outcome = .error fault ∧ ∀ call args, fault ≠ .remoteFailure call args := by
  cases hstep with
  | join r =>
    dsimp only at hget
    by_cases hj : j < c.callers.length
    · rw [List.getElem?_append_left hj] at hget
      exact Or.inl hget
    · -- the one that joins has only begun
      rw [List.getElem?_append_right (Nat.not_lt.1 hj)] at hget
      rw [List.mem_singleton.1 (List.mem_of_getElem? hget)] at hover
      exact absurd hover (by simp)
  | @proceed i caller s' stage' hcaller hmove =>
    rcases getElem?_setStage hget with ⟨rfl, a, ha, rfl⟩ | ⟨_, hold⟩
    · cases hcaller.symm.trans ha
      dsimp only at hover
      subst hover
      -- four moves end a call; one of them with an answer
      generalize hstage : caller.stage = old at hmove
      cases hmove with
      | refused _ => exact Or.inr (Or.inr ⟨_, rfl, by simp⟩)
      | noWriter _ => exact Or.inr (Or.inr ⟨_, rfl, by simp⟩)
      | hungUp _ _ => exact Or.inr (Or.inr ⟨_, rfl, by simp⟩)
      | @take id m ms hinbox hanswer =>
        refine Or.inr (Or.inl ⟨⟨j, id, m⟩, caller, ?_, hcaller, hstage, rfl, rfl, rfl, rfl⟩)
        unfold receipt?
        dsimp only
        rw [hcaller, Option.map_some, hstage, hinbox]
        exact if_pos hanswer
    · exact Or.inl hold
  | timeOut hcaller hstage =>
    rcases getElem?_setStage hget with ⟨rfl, a, ha, rfl⟩ | ⟨_, hold⟩
    · cases hover
      exact Or.inr (Or.inr ⟨_, rfl, by simp⟩)
    · exact Or.inl hold
  | cancel hcaller hstage =>
    rcases getElem?_setStage hget with ⟨rfl, a, ha, rfl⟩ | ⟨_, hold⟩
    · exact absurd hover (by simp)
    · exact Or.inl hold
  | deliver d => exact Or.inl hget
  | close => exact Or.inl hget
  | dropWriter => exact Or.inl hget

/-- How a caller got over its call in a run. If it took an answer, that is in the receipts, and
the call in the queue with the same id is its own. -/
theorem Correlated.finished_cases (h : c.Correlated) (hrun : c.Trusted acts c') {j : Nat}
    {b : Caller} {id : Option UInt64} {outcome : Except CallFault Message}
    (hget : c'.callers[j]? = some b) (hover : b.stage = .finished id outcome) :
    c.callers[j]? = some b ∨
    (∃ r ∈ c.receipts acts, r.caller = j ∧ id = some r.id ∧
      outcome = Session.outcomeOf b.request.name r.answer ∧
      b.request.message r.id ∈ c'.session.calls) ∨
    ∃ fault, outcome = .error fault ∧ ∀ call args, fault ≠ .remoteFailure call args := by
  induction hrun with
  | nil c => exact Or.inl hget
  | @cons c c₁ c' act acts hdevice hsize hstep hrest ih =>
    have hsteps := steps_of_step hstep
    rw [receipts_cons hstep]
    -- it was over after the first step, or something of the rest ended it
    rcases ih (h.step hsteps hdevice hsize) hget with hthen | ⟨r, hr, htaken⟩ | hfault
    · rcases Callers.finished_cases hsteps hthen hover with
        hbefore | ⟨r, a, hr, ha, hwaiting, hrequest, hcaller, hid, houtcome⟩ | hfault
      · exact Or.inl hbefore
      · have hmem : r ∈ (c.receipt? act).toList ++ c₁.receipts acts :=
          List.mem_append_left _ (Option.mem_toList.2 hr)
        -- it has posted its call before it waited
        obtain ⟨_, hposted⟩ := (h.callers j a ha).waiting r.id hwaiting
        rw [hrequest] at hposted
        have hstays := calls_subset_of_trusted hrest _ (calls_subset hsteps _ hposted)
        exact Or.inr (Or.inl ⟨r, hmem, hcaller, hid, houtcome, hstays⟩)
      · exact Or.inr (Or.inr hfault)
    · exact Or.inr (Or.inl ⟨r, List.mem_append_right _ hr, htaken⟩)
    · exact Or.inr (Or.inr hfault)

/-! ## Ids without gaps -/

/-- The calls have the ids 1, 2, 3 and so on. While the writer takes messages, an id that was
handed out is that of a call or of the caller about to post it. -/
structure Dense (c : Callers) : Prop where
  consecutive : c.session.callIds.map (·.toNat) = List.range' 1 c.session.callIds.length
  counted : c.session.writerOpen = true →
    c.session.callIds.length + c.count CallStage.isNumbered = c.session.lastId.toNat

theorem Dense.idle {s : Session} (h : s.Fresh) : (idle s).Dense where
  consecutive := by
    show s.callIds.map (·.toNat) = List.range' 1 s.callIds.length
    rw [h.callIds]
    rfl
  counted _ := by
    show s.callIds.length + 0 = s.lastId.toNat
    rw [h.callIds, h.lastId]
    rfl

/-- At most one caller is about to post its call, since it has its turn. -/
theorem count_isNumbered_le (c : Callers) :
    c.count CallStage.isNumbered ≤ c.count CallStage.hasTurn := by
  refine List.countP_mono_left fun a _ hnumbered => ?_
  cases hstage : a.stage with
  | numbered id => rfl
  | entering => exact absurd hnumbered (by simp [hstage, CallStage.isNumbered])
  | queued => exact absurd hnumbered (by simp [hstage, CallStage.isNumbered])
  | clearing => exact absurd hnumbered (by simp [hstage, CallStage.isNumbered])
  | waiting id => exact absurd hnumbered (by simp [hstage, CallStage.isNumbered])
  | finished id outcome => exact absurd hnumbered (by simp [hstage, CallStage.isNumbered])
  | cancelled => exact absurd hnumbered (by simp [hstage, CallStage.isNumbered])

end Callers

/-- A move keeps the balance of ids: one more is handed out for a caller about to post, and posting
makes it the id of a call. Only a caller that finds no writer leaves an id without a call. -/
theorem CallStage.Moves.counted {r : Request} {busy : Bool} {s s' : Session}
    {stage stage' : CallStage} (h : stage.Moves r busy s s' stage')
    (hroom : stage.isAhead = true → s.lastId.toNat + 1 < UInt64.size)
    (hwriter' : s'.writerOpen = true) :
    s.writerOpen = true ∧
    s'.callIds.length + (if stage'.isNumbered then 1 else 0) + s.lastId.toNat
      = s.callIds.length + (if stage.isNumbered then 1 else 0) + s'.lastId.toNat := by
  cases h with
  | number _ =>
    have hnext : (s.lastId + 1).toNat = s.lastId.toNat + 1 := by
      rw [UInt64.toNat_add, UInt64.toNat_one, Nat.mod_eq_of_lt (hroom rfl)]
    refine ⟨hwriter', ?_⟩
    show s.callIds.length + 1 + s.lastId.toNat = s.callIds.length + 0 + (s.lastId + 1).toNat
    rw [hnext]
    omega
  | @post id hwriter =>
    refine ⟨hwriter, ?_⟩
    rw [Session.callIds_post, List.length_append]
    rfl
  | noWriter hwriter =>
    rw [hwriter] at hwriter'
    exact absurd hwriter' (by simp)
  | refused _ => exact ⟨hwriter', rfl⟩
  | lineUp _ => exact ⟨hwriter', rfl⟩
  | turn _ => exact ⟨hwriter', rfl⟩
  | forget _ => exact ⟨hwriter', rfl⟩
  | skip _ _ => exact ⟨hwriter', rfl⟩
  | take _ _ => exact ⟨hwriter', rfl⟩
  | hungUp _ _ => exact ⟨hwriter', rfl⟩

namespace Callers

variable {c c' : Callers} {act : Act} {acts : List Act} {i : Nat} {a : Caller} {s' : Session}

/-- A step without giving a caller up leaves no gap. -/
theorem Dense.step (h : c.Dense) (hc : c.Correlated) (hstep : c.Steps act c')
    (hkeep : ∀ i, act ≠ .cancel i) (hsize : c.callers.length < UInt64.size) : c'.Dense := by
  cases hstep with
  | join r =>
    refine ⟨h.consecutive, fun hwriter => ?_⟩
    rw [count_join, if_neg (by decide)]
    exact h.counted hwriter
  | @proceed i caller s' stage' hget hmove =>
    -- who is about to post, before and after
    have hmoved := count_setStage (c := { c with session := s' }) CallStage.isNumbered stage' hget
    have hsame : count { c with session := s' } CallStage.isNumbered
        = c.count CallStage.isNumbered := rfl
    rw [hsame] at hmoved
    refine ⟨?_, fun hwriter => ?_⟩
    · show s'.callIds.map (·.toNat) = List.range' 1 s'.callIds.length
      rcases hmove.outbox_cases with houtbox | ⟨id, hstage, hwriter, houtbox⟩
      · rw [Session.callIds_congr houtbox]
        exact h.consecutive
      · -- the balance leaves exactly one id that is not posted yet
        have hlast : id = c.session.lastId := ((hc.callers i caller hget).numbered id hstage).1
        have hbalance := h.counted hwriter
        have hmost : c.count CallStage.isNumbered ≤ 1 :=
          Nat.le_trans (count_isNumbered_le c) hc.turns
        have hleast : 0 < c.count CallStage.isNumbered := count_pos hget (by rw [hstage]; rfl)
        have hnext : id.toNat = 1 + c.session.callIds.length := by
          rw [hlast]
          omega
        have hids : s'.callIds = c.session.callIds ++ [id] :=
          (Session.callIds_congr (s := { c.session with
            outbox := c.session.outbox ++ [caller.request.message id] }) houtbox).trans
            (Session.callIds_post ..)
        rw [hids, List.map_append, h.consecutive, List.length_append, List.length_singleton,
          List.range'_1_concat, List.map_singleton, hnext]
    · obtain ⟨hbefore, hbalance⟩ :=
        hmove.counted (fun hahead => hc.room hget hahead hsize) hwriter
      have hcounted := h.counted hbefore
      show s'.callIds.length + (setStage { c with session := s' } i stage').count
        CallStage.isNumbered = s'.lastId.toNat
      omega
  | @timeOut i caller id hget hstage =>
    refine ⟨h.consecutive, fun hwriter => ?_⟩
    have hmoved := count_setStage CallStage.isNumbered
      (.finished (some id) (.error (.timeout caller.request.timeout))) hget
    rw [hstage] at hmoved
    -- a caller that waits is not about to post, nor is one whose call is over
    exact (congrArg (c.session.callIds.length + ·) hmoved).trans (h.counted hwriter)
  | cancel hget hstage => exact absurd rfl (hkeep _)
  | deliver d =>
    obtain ⟨hlast, houtbox, hsame, _⟩ := deliver_frame c.session d
    have hids : (c.session.deliver d).callIds = c.session.callIds := Session.callIds_congr houtbox
    refine ⟨?_, fun hwriter => ?_⟩
    · show (c.session.deliver d).callIds.map (·.toNat)
        = List.range' 1 (c.session.deliver d).callIds.length
      rw [hids]
      exact h.consecutive
    · show (c.session.deliver d).callIds.length + c.count CallStage.isNumbered
        = (c.session.deliver d).lastId.toNat
      rw [hids, hlast]
      exact h.counted (hsame.symm.trans hwriter)
  | close => exact ⟨h.consecutive, h.counted⟩
  | dropWriter =>
    have hgone : c.session.dropWriter.writerOpen = false := rfl
    refine ⟨h.consecutive, fun hwriter => ?_⟩
    exact absurd (hgone.symm.trans hwriter) (by simp)

theorem Dense.run (h : c.Dense) (hc : c.Correlated) (hrun : c.Trusted acts c')
    (hkeep : ∀ i, Act.cancel i ∉ acts) : c'.Dense := by
  induction hrun with
  | nil c => exact h
  | cons hdevice hsize hstep _ ih =>
    have hsteps := steps_of_step hstep
    have hfirst := fun i heq => hkeep i (List.mem_cons.2 (Or.inl (Eq.symm heq)))
    have hrest := fun i hmem => hkeep i (List.mem_cons_of_mem _ hmem)
    exact ih (h.step hc hsteps hfirst hsize) (hc.step hsteps hdevice hsize) hrest

/-! ## Any number of callers, in any order -/

/-- **Every answer reaches the call that it answers.** However many callers there are, whatever
becomes of each and however the device delays, repeats and reorders its answers: an answer that is
taken bears the id of the caller that takes it, a caller whose call comes to a result or to a
remote failure has it from such an answer, and the call in the queue with that id is its own. No
two callers share an id, calls have increasing ids in the queue, and these are 1, 2, 3 and so on
unless a caller is given up. -/
theorem answers_correlate {s : Session} {acts : List Act} {c : Callers} (hfresh : s.Fresh)
    (hdevice : (idle s).onlyAnswers acts = true) (hrun : (idle s).run acts = some c)
    (hsize : c.callers.length < UInt64.size) :
    (∀ r ∈ (idle s).receipts acts, r.answer.id = some r.id) ∧
    (∀ (i : Nat) (caller : Caller) (id : Option UInt64) (outcome : Except CallFault Message),
      c.callers[i]? = some caller → caller.stage = .finished id outcome →
        (∃ r ∈ (idle s).receipts acts, r.caller = i ∧ id = some r.id ∧
          outcome = Session.outcomeOf caller.request.name r.answer ∧
          caller.request.message r.id ∈ c.session.calls) ∨
        ∃ fault, outcome = .error fault ∧ ∀ call args, fault ≠ .remoteFailure call args) ∧
    (∀ (i j : Nat) (a b : Caller) (id : UInt64), c.callers[i]? = some a → c.callers[j]? = some b →
      a.stage.id? = some id → b.stage.id? = some id → i = j) ∧
    c.session.calls.map (·.id) = c.session.callIds.map some ∧
    c.session.callIds.Pairwise (· < ·) ∧
    ((∀ i, Act.cancel i ∉ acts) →
      c.session.callIds.map (·.toNat) = List.range' 1 c.session.callIds.length) := by
  have hstart : (idle s).Correlated := Correlated.idle hfresh
  have htrusted : (idle s).Trusted acts c := trusted_of_run hdevice hrun hsize
  have hend : c.Correlated := hstart.run htrusted
  refine ⟨hstart.id_of_mem_receipts htrusted, fun i caller id outcome hget hover => ?_,
    hend.distinct, hend.session.map_id_calls, hend.session.increasing, fun hkeep => ?_⟩
  · rcases hstart.finished_cases htrusted hget hover with hbefore | htaken | hfault
    · -- nobody was there at the start
      exact absurd hbefore (by simp [idle])
    · exact Or.inl htaken
    · exact Or.inr hfault
  · exact ((Dense.idle hfresh).run hstart htrusted hkeep).consecutive

/-- The first call runs out of time. Its answer comes twice, before the second call clears the inbox
and while that one waits; then the second one gets its own. -/
theorem second_call_skips_late_answers :
    let s := Session.connect "d" none Session.standardTimeout
    let r : Request := ⟨"get", [], Session.standardTimeout, .plain⟩
    let reply := fun id : UInt64 => Act.deliver (.message ⟨some id, .result, .plain, "ok", []⟩)
    let acts : List Act := [.join r, .join r, .proceed 0, .proceed 0, .proceed 0, .proceed 0,
      .timeOut 0, reply 1, .proceed 1, .proceed 1, .proceed 1, .proceed 1, .proceed 1, reply 1,
      reply 2, .proceed 1, .proceed 1]
    ∃ c, (idle s).onlyAnswers acts = true ∧ (idle s).run acts = some c ∧
      c.callers.length < UInt64.size ∧ c.session.callIds = [1, 2] ∧
      ((idle s).receipts acts).map (fun r => (r.caller, r.id)) = [(1, 2)] ∧
      ∀ r ∈ (idle s).receipts acts, r.answer.id = some r.id := by
  intro s r reply acts
  have hdevice : (idle s).onlyAnswers acts = true := by rfl
  have hsome : ((idle s).run acts).isSome = true := by rfl
  obtain ⟨c, hrun⟩ := Option.isSome_iff_exists.1 hsome
  have hids : ((idle s).run acts).map (·.session.callIds) = some [1, 2] := by rfl
  have hcallers : ((idle s).run acts).map (·.callers.length) = some 2 := by rfl
  rw [hrun, Option.map_some] at hids hcallers
  have hsize : c.callers.length < UInt64.size := by
    rw [Option.some.inj hcallers]
    decide
  obtain ⟨hreceipts, _⟩ := answers_correlate (Session.fresh_connect ..) hdevice hrun hsize
  exact ⟨c, hdevice, hrun, hsize, Option.some.inj hids, by rfl, hreceipts⟩

end Callers

end KeywordRunner
