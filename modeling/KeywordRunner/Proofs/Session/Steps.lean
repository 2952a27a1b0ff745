import KeywordRunner.Session.Callers

/-!
# Proofs.Session.Steps — what the parties of a session can do

The steps of callers, device and writer as rules, so that an invariant is a case analysis over the
rules and no proof opens `Callers.step`.

* **`CallStage.Moves`** — the rules for one caller.
* **`Callers.Steps`** — the rules for everyone.
* **`Callers.count`** — how many callers are at some kind of stage, before and after one of them
  moves.
* **`count_hasTurn_le_one`** — taking turns works: at most one caller has its turn.
-/

namespace KeywordRunner

open Wire (Message)

/-- The message that a call posts under its id. -/
def Request.message (r : Request) (id : UInt64) : Message :=
  Message.call id r.name r.args r.version

/-! ## The rules -/

/-- How a caller gets from one stage to the next, and what it does to the session. -/
inductive CallStage.Moves (r : Request) (busy : Bool) (s : Session) :
    CallStage → Session → CallStage → Prop where
  | refused (hclosed : s.closed = true) :
      Moves r busy s .entering s (.finished none (.error (.notConnected s.deviceId)))
  | lineUp (hopen : s.closed = false) : Moves r busy s .entering s .queued
  | turn (hfree : busy = false) : Moves r busy s .queued s .clearing
  | forget {m : Message} {ms : List Message} (hinbox : s.inbox = m :: ms) :
      Moves r busy s .clearing { s with inbox := ms } .clearing
  | number (hinbox : s.inbox = []) :
      Moves r busy s .clearing { s with lastId := s.lastId + 1 } (.numbered (s.lastId + 1))
  | post {id : UInt64} (hwriter : s.writerOpen = true) :
      Moves r busy s (.numbered id) { s with outbox := s.outbox ++ [r.message id] } (.waiting id)
  | noWriter {id : UInt64} (hwriter : s.writerOpen = false) :
      Moves r busy s (.numbered id) s
        (.finished (some id) (.error (.connectionClosed s.deviceId)))
  | skip {id : UInt64} {m : Message} {ms : List Message} (hinbox : s.inbox = m :: ms)
      (hlate : Session.answers id m = false) :
      Moves r busy s (.waiting id) { s with inbox := ms } (.waiting id)
  | take {id : UInt64} {m : Message} {ms : List Message} (hinbox : s.inbox = m :: ms)
      (hanswer : Session.answers id m = true) :
      Moves r busy s (.waiting id) { s with inbox := ms }
        (.finished (some id) (Session.outcomeOf r.name m))
  | hungUp {id : UInt64} (hinbox : s.inbox = []) (hopen : s.inboxOpen = false) :
      Moves r busy s (.waiting id) s
        (.finished (some id) (.error (.connectionClosed s.deviceId)))

namespace Callers

theorem moves_of_next {s s' : Session} {busy : Bool} {r : Request} {stage stage' : CallStage}
    (h : next s busy r stage = some (s', stage')) : stage.Moves r busy s s' stage' := by
  cases stage with
  | entering =>
    unfold next at h
    cases hclosed : s.closed with
    | true =>
      rw [hclosed] at h
      cases h
      exact .refused hclosed
    | false =>
      rw [hclosed] at h
      cases h
      exact .lineUp hclosed
  | queued =>
    unfold next at h
    cases busy with
    | true => exact absurd h (by simp)
    | false =>
      cases h
      exact .turn rfl
  | clearing =>
    unfold next at h
    cases hinbox : s.inbox with
    | nil =>
      rw [hinbox] at h
      cases h
      exact .number hinbox
    | cons m ms =>
      rw [hinbox] at h
      cases h
      exact .forget hinbox
  | numbered id =>
    unfold next at h
    dsimp only at h
    cases hwriter : s.writerOpen with
    | true =>
      have hpost : s.post (Message.call id r.name r.args r.version)
          = some { s with outbox := s.outbox ++ [r.message id] } := if_pos hwriter
      rw [hpost] at h
      cases h
      exact .post hwriter
    | false =>
      have hpost : s.post (Message.call id r.name r.args r.version) = none :=
        if_neg (by simp [hwriter])
      rw [hpost] at h
      cases h
      exact .noWriter hwriter
  | waiting id =>
    unfold next at h
    cases hinbox : s.inbox with
    | nil =>
      rw [hinbox] at h
      cases hopen : s.inboxOpen with
      | true =>
        rw [hopen] at h
        exact absurd h (by simp)
      | false =>
        rw [hopen] at h
        cases h
        exact .hungUp hinbox hopen
    | cons m ms =>
      rw [hinbox] at h
      cases hanswer : Session.answers id m with
      | true =>
        simp only [hanswer, if_true] at h
        cases h
        exact .take hinbox hanswer
      | false =>
        simp only [hanswer, Bool.false_eq_true, if_false] at h
        cases h
        exact .skip hinbox hanswer
  | finished id outcome => exact absurd h (by simp [next])
  | cancelled => exact absurd h (by simp [next])

/-- What each act does to everyone. -/
inductive Steps (c : Callers) : Act → Callers → Prop where
  | join (r : Request) : Steps c (.join r) { c with callers := c.callers ++ [⟨r, .entering⟩] }
  | proceed {i : Nat} {caller : Caller} {s' : Session} {stage' : CallStage}
      (hget : c.callers[i]? = some caller)
      (hmove : caller.stage.Moves caller.request c.busy c.session s' stage') :
      Steps c (.proceed i) (setStage { c with session := s' } i stage')
  | timeOut {i : Nat} {caller : Caller} {id : UInt64} (hget : c.callers[i]? = some caller)
      (hstage : caller.stage = .waiting id) :
      Steps c (.timeOut i)
        (c.setStage i (.finished (some id) (.error (.timeout caller.request.timeout))))
  | cancel {i : Nat} {caller : Caller} (hget : c.callers[i]? = some caller)
      (hstage : caller.stage.isOver = false) : Steps c (.cancel i) (c.setStage i .cancelled)
  | deliver (d : Delivery) : Steps c (.deliver d) { c with session := c.session.deliver d }
  | close : Steps c .close { c with session := c.session.markClosed }
  | dropWriter : Steps c .dropWriter { c with session := c.session.dropWriter }

variable {c c' : Callers} {act : Act} {acts : List Act} {i j : Nat} {a b : Caller}
  {stage : CallStage}

theorem steps_of_step (h : c.step act = some c') : c.Steps act c' := by
  cases act with
  | join r =>
    cases h
    exact .join r
  | proceed i =>
    obtain ⟨caller, hget, hnext⟩ := Option.bind_eq_some_iff.1 h
    obtain ⟨⟨s', stage'⟩, hmove, rfl⟩ := Option.map_eq_some_iff.1 hnext
    exact .proceed hget (moves_of_next hmove)
  | timeOut i =>
    obtain ⟨caller, hget, hstage⟩ := Option.bind_eq_some_iff.1 h
    split at hstage
    · next id hwaiting =>
      cases hstage
      exact .timeOut hget hwaiting
    · exact absurd hstage (by simp)
  | cancel i =>
    obtain ⟨caller, hget, hstage⟩ := Option.bind_eq_some_iff.1 h
    cases hover : caller.stage.isOver with
    | true => exact absurd hstage (by simp [hover])
    | false =>
      simp only [hover, Bool.false_eq_true, if_false] at hstage
      cases hstage
      exact .cancel hget hover
  | deliver d =>
    cases h
    exact .deliver d
  | close =>
    cases h
    exact .close
  | dropWriter =>
    cases h
    exact .dropWriter

/-- What the far end does concerns neither ids nor the writer, and nothing gets into the inbox but
its message. -/
theorem deliver_frame (s : Session) (d : Delivery) :
    (s.deliver d).lastId = s.lastId ∧ (s.deliver d).outbox = s.outbox ∧
      (s.deliver d).writerOpen = s.writerOpen ∧
      ∀ m ∈ (s.deliver d).inbox, m ∈ s.inbox ∨ (d = .message m ∧ s.inboxOpen = true) := by
  cases d with
  | hangUp => exact ⟨rfl, rfl, rfl, fun m hm => Or.inl hm⟩
  | message m =>
    unfold Session.deliver
    dsimp only
    split
    · next hopen =>
      refine ⟨rfl, rfl, rfl, fun m' hm' => ?_⟩
      rcases List.mem_append.1 hm' with hm' | hm'
      · exact Or.inl hm'
      · rw [List.mem_singleton.1 hm']
        exact Or.inr ⟨rfl, hopen⟩
    · exact ⟨rfl, rfl, rfl, fun m hm => Or.inl hm⟩

/-! ## One caller at another stage -/

/-- A caller after one of them moves: it is the one that moved, or another one as before. -/
theorem getElem?_setStage (h : (c.setStage i stage).callers[j]? = some b) :
    (j = i ∧ ∃ a, c.callers[i]? = some a ∧ b = { a with stage }) ∨
      (j ≠ i ∧ c.callers[j]? = some b) := by
  have hget : (c.callers.modify i fun caller => { caller with stage })[j]? = some b := h
  by_cases hj : j = i
  · subst hj
    rw [List.getElem?_modify_eq] at hget
    obtain ⟨a, ha, rfl⟩ := Option.map_eq_some_iff.1 hget
    exact Or.inl ⟨rfl, a, ha, rfl⟩
  · rw [List.getElem?_modify_ne _ _ fun hij => hj hij.symm] at hget
    exact Or.inr ⟨hj, hget⟩

@[simp] theorem length_setStage (c : Callers) (i : Nat) (stage : CallStage) :
    (c.setStage i stage).callers.length = c.callers.length :=
  List.length_modify ..

/-- The number of callers at some kind of stage. -/
def count (c : Callers) (p : CallStage → Bool) : Nat := c.callers.countP fun a => p a.stage

theorem count_join (c : Callers) (p : CallStage → Bool) (r : Request) :
    count { c with callers := c.callers ++ [⟨r, .entering⟩] } p
      = c.count p + if p .entering then 1 else 0 := by
  unfold count
  rw [List.countP_append, List.countP_singleton]

/-- The caller that moves is counted at its new stage instead of its old one. -/
theorem count_setStage (p : CallStage → Bool) (stage : CallStage) (h : c.callers[i]? = some a) :
    (c.setStage i stage).count p + (if p a.stage then 1 else 0)
      = c.count p + if p stage then 1 else 0 := by
  obtain ⟨hlt, hget⟩ := List.getElem?_eq_some_iff.1 h
  -- the callers before it and after it are counted on both sides
  obtain ⟨l₁, b, l₂, hwhole, hl₁, hmodify⟩ :=
    List.exists_of_modify (fun caller : Caller => { caller with stage }) hlt
  have hb : b = a := by
    rw [hwhole, ← hl₁, List.getElem?_append_right (Nat.le_refl _), Nat.sub_self] at h
    exact Option.some.inj h
  subst hb
  unfold count setStage
  rw [hmodify]
  dsimp only
  rw [hwhole, List.countP_append, List.countP_append, List.countP_cons, List.countP_cons]
  dsimp only
  omega

theorem count_setStage_le {p : CallStage → Bool} (h : c.callers[i]? = some a)
    (hp : p stage = false) : (c.setStage i stage).count p ≤ c.count p := by
  have hmoved := count_setStage p stage h
  rw [hp, if_neg Bool.false_ne_true] at hmoved
  omega

/-- Someone at such a stage is counted. -/
theorem count_pos {p : CallStage → Bool} (h : c.callers[i]? = some a) (hp : p a.stage = true) :
    0 < c.count p :=
  List.countP_pos_iff.2 ⟨a, List.mem_of_getElem? h, hp⟩

/-- If at most one caller has its turn, two that have it are the same. -/
theorem eq_of_hasTurn (hturns : c.count CallStage.hasTurn ≤ 1) (ha : c.callers[i]? = some a)
    (hb : c.callers[j]? = some b) (hturnA : a.stage.hasTurn = true)
    (hturnB : b.stage.hasTurn = true) : i = j := by
  by_cases hij : i = j
  · exact hij
  -- the second one is still counted when the first one has given its turn up
  have hother : (c.setStage i .cancelled).callers[j]? = some b := by
    show (c.callers.modify i fun caller => { caller with stage := .cancelled })[j]? = some b
    rw [List.getElem?_modify_ne _ _ hij, hb]
  have hleft := count_pos hother hturnB
  have hmoved := count_setStage CallStage.hasTurn .cancelled ha
  have hover : CallStage.cancelled.hasTurn = false := rfl
  rw [hturnA, hover, if_pos rfl, if_neg Bool.false_ne_true] at hmoved
  omega

/-! ## What every step keeps -/

theorem count_hasTurn_eq_zero (h : c.busy = false) : c.count CallStage.hasTurn = 0 := by
  refine List.countP_eq_zero.2 fun a ha => ?_
  have hturn := List.any_eq_false.1 h a ha
  simpa using hturn

/-- At most one caller has its turn: one that takes it does so when nobody else has it. -/
theorem count_hasTurn_le_one (h : c.Steps act c') (hturns : c.count CallStage.hasTurn ≤ 1) :
    c'.count CallStage.hasTurn ≤ 1 := by
  cases h with
  | join r =>
    have hnew : ¬CallStage.entering.hasTurn = true := by decide
    rw [count_join, if_neg hnew]
    exact hturns
  | @proceed i caller s' stage' hget hmove =>
    have hmoved := count_setStage (c := { c with session := s' }) CallStage.hasTurn stage' hget
    have hsame : count { c with session := s' } CallStage.hasTurn = c.count CallStage.hasTurn := rfl
    cases hstage : caller.stage.hasTurn with
    | true =>
      -- it had its turn and may have kept it
      rw [hstage, if_pos rfl, hsame] at hmoved
      split at hmoved <;> omega
    | false =>
      rw [hstage, if_neg Bool.false_ne_true, Nat.add_zero, hsame] at hmoved
      rw [hmoved]
      -- only a caller that waits for its turn can get it
      generalize caller.stage = old at hstage hmove
      cases hmove with
      | refused _ => exact hturns
      | lineUp _ => exact hturns
      | turn hfree =>
        have hnone : c.count CallStage.hasTurn = 0 := count_hasTurn_eq_zero hfree
        rw [if_pos (show CallStage.clearing.hasTurn = true from rfl)]
        omega
      | forget _ => exact absurd hstage (by decide)
      | number _ => exact absurd hstage (by decide)
      | post _ => exact absurd hstage (by simp [CallStage.hasTurn])
      | noWriter _ => exact absurd hstage (by simp [CallStage.hasTurn])
      | skip _ _ => exact absurd hstage (by simp [CallStage.hasTurn])
      | take _ _ => exact absurd hstage (by simp [CallStage.hasTurn])
      | hungUp _ _ => exact absurd hstage (by simp [CallStage.hasTurn])
  | timeOut hget hstage => exact Nat.le_trans (count_setStage_le hget rfl) hturns
  | cancel hget hstage => exact Nat.le_trans (count_setStage_le hget rfl) hturns
  | deliver d => exact hturns
  | close => exact hturns
  | dropWriter => exact hturns

/-- Nobody who has joined leaves. -/
theorem length_callers_le (h : c.Steps act c') : c.callers.length ≤ c'.callers.length := by
  cases h with
  | join r =>
    dsimp only
    rw [List.length_append]
    exact Nat.le_add_right _ _
  | proceed hget hmove => exact Nat.le_of_eq (length_setStage ..).symm
  | timeOut hget hstage => exact Nat.le_of_eq (length_setStage ..).symm
  | cancel hget hstage => exact Nat.le_of_eq (length_setStage ..).symm
  | deliver d => exact Nat.le_refl _
  | close => exact Nat.le_refl _
  | dropWriter => exact Nat.le_refl _

end Callers

end KeywordRunner
