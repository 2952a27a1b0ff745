import KeywordRunner.Proofs.Session.Correlation

/-!
# Proofs.Session.Sources — where the outcome of a call comes from

A caller that does not fail for a reason of its own has its outcome from a message that the far end
sent, and nobody looks at the type of that message.

* **`Callers.Sourced`** — every message in the inbox, and every outcome that is made of a message,
  comes from what was sent; kept by each step, and so by a run.
* **`Callers.run_retype`** — give the messages of the far end any other types: the run is the same,
  with these types. So a call is answered by a call as well as by a result.
-/

namespace KeywordRunner

open Wire (Message MessageType)

namespace Callers

variable {c c' : Callers} {act : Act} {acts : List Act} {ms : List Message}

/-! ## Outcomes and what was sent -/

/-- The messages that the far end sends. -/
def delivered (acts : List Act) : List Message :=
  acts.filterMap fun
    | .deliver (.message m) => some m
    | _ => none

/-- The outcome of a call that got this id: made of a message among `ms` that answers it, or a
failure for a reason of its own. -/
def IsSourced (ms : List Message) (call : String) (id : Option UInt64)
    (outcome : Except CallFault Message) : Prop :=
  (∃ m ∈ ms, (∃ n, id = some n ∧ Session.answers n m = true) ∧
    outcome = Session.outcomeOf call m) ∨
  ∃ fault, outcome = .error fault ∧ ∀ call args, fault ≠ .remoteFailure call args

/-- Everything that came to this side is among these messages. -/
structure Sourced (ms : List Message) (c : Callers) : Prop where
  inbox : ∀ m ∈ c.session.inbox, m ∈ ms
  outcomes : ∀ (i : Nat) (caller : Caller) (id : Option UInt64)
    (outcome : Except CallFault Message), c.callers[i]? = some caller →
    caller.stage = .finished id outcome → IsSourced ms caller.request.name id outcome

theorem Sourced.idle {s : Session} (h : ∀ m ∈ s.inbox, m ∈ ms) : (idle s).Sourced ms where
  inbox := h
  outcomes := by
    intro i caller id outcome hget
    exact absurd hget (by simp [Callers.idle])

/-- A caller only takes messages out of the inbox. -/
theorem inbox_of_moves {r : Request} {busy : Bool} {s s' : Session} {stage stage' : CallStage}
    (h : stage.Moves r busy s s' stage') : ∀ m ∈ s'.inbox, m ∈ s.inbox := by
  intro m hm
  cases h with
  | forget hinbox =>
    rw [hinbox]
    exact List.mem_cons_of_mem _ hm
  | skip hinbox hlate =>
    rw [hinbox]
    exact List.mem_cons_of_mem _ hm
  | take hinbox hanswer =>
    rw [hinbox]
    exact List.mem_cons_of_mem _ hm
  | refused _ => exact hm
  | lineUp _ => exact hm
  | turn _ => exact hm
  | number _ => exact hm
  | post _ => exact hm
  | noWriter _ => exact hm
  | hungUp _ _ => exact hm

/-- Nothing gets into the inbox but what the far end sends. -/
theorem inbox_of_step (h : c.Steps act c') :
    ∀ m ∈ c'.session.inbox, m ∈ c.session.inbox ∨ act = .deliver (.message m) := by
  intro m hm
  cases h with
  | proceed hget hmove => exact Or.inl (inbox_of_moves hmove m hm)
  | deliver d =>
    rcases (deliver_frame c.session d).2.2.2 m hm with hold | ⟨rfl, _⟩
    · exact Or.inl hold
    · exact Or.inr rfl
  | join r => exact Or.inl hm
  | timeOut _ _ => exact Or.inl hm
  | cancel _ _ => exact Or.inl hm
  | close => exact Or.inl hm
  | dropWriter => exact Or.inl hm

/-- A step keeps this, if what is sent in it is among the messages. -/
theorem Sourced.step (h : c.Sourced ms) (hstep : c.Steps act c')
    (hsent : ∀ m, act = .deliver (.message m) → m ∈ ms) : c'.Sourced ms where
  inbox := by
    intro m hm
    rcases inbox_of_step hstep m hm with hold | hnew
    · exact h.inbox m hold
    · exact hsent m hnew
  outcomes := by
    intro i caller id outcome hget hover
    rcases finished_cases hstep hget hover with
      hbefore | ⟨r, a, hr, _, _, _, _, hid, houtcome⟩ | hfault
    · exact h.outcomes i caller id outcome hbefore hover
    · obtain ⟨_, hmem, hanswer⟩ := receipt?_cases hr
      exact Or.inl ⟨r.answer, h.inbox _ hmem, ⟨r.id, hid, hanswer⟩, houtcome⟩
    · exact Or.inr hfault

theorem Sourced.run (h : c.Sourced ms) (hrun : c.run acts = some c')
    (hsent : ∀ m ∈ delivered acts, m ∈ ms) : c'.Sourced ms := by
  unfold Callers.run at hrun
  induction acts generalizing c with
  | nil =>
    cases hrun
    exact h
  | cons act acts ih =>
    rw [List.foldlM_cons] at hrun
    obtain ⟨c₁, hstep, hrest⟩ := Option.bind_eq_some_iff.1 hrun
    have hfirst : ∀ m, act = .deliver (.message m) → m ∈ ms := by
      intro m hact
      apply hsent
      rw [hact]
      exact List.mem_cons_self
    have hlater : ∀ m ∈ delivered acts, m ∈ ms := by
      intro m hm
      apply hsent
      obtain ⟨act', hact', heq⟩ := List.mem_filterMap.1 hm
      exact List.mem_filterMap.2 ⟨act', List.mem_cons_of_mem _ hact', heq⟩
    exact ih (h.step (steps_of_step hstep) hfirst) hrest hlater

end Callers

/-! ## Other types

`f` gives each message another type. Nothing else of it is changed, and nothing of what this side
sends. -/

section Retype

variable (f : Message → MessageType)

def Wire.Message.retype (m : Message) : Message := { m with type := f m }

def Delivery.retype : Delivery → Delivery
  | .message m => .message (m.retype f)
  | .hangUp => .hangUp

def Session.retype (s : Session) : Session := { s with inbox := s.inbox.map (·.retype f) }

def CallStage.retype : CallStage → CallStage
  | .finished id outcome => .finished id (outcome.map (·.retype f))
  | stage => stage

def Caller.retype (a : Caller) : Caller := { a with stage := a.stage.retype f }

def Callers.retype (c : Callers) : Callers := ⟨c.session.retype f, c.callers.map (·.retype f)⟩

def Callers.Act.retype : Callers.Act → Callers.Act
  | .deliver d => .deliver (d.retype f)
  | act => act

/-- Whether a message answers a call is a matter of its id. -/
theorem Session.answers_retype (id : UInt64) (m : Message) :
    Session.answers id (m.retype f) = Session.answers id m := rfl

/-- Whether it reports a failure is a matter of its name. -/
theorem Session.outcomeOf_retype (call : String) (m : Message) :
    Session.outcomeOf call (m.retype f) = (Session.outcomeOf call m).map (·.retype f) := by
  have hfailure : (m.retype f).isFailure = m.isFailure := rfl
  unfold Session.outcomeOf
  rw [hfailure]
  split <;> rfl

theorem Session.deliver_retype (s : Session) (d : Delivery) :
    (s.retype f).deliver (d.retype f) = (s.deliver d).retype f := by
  cases d with
  | hangUp => rfl
  | message m =>
    have hopen : (s.retype f).inboxOpen = s.inboxOpen := rfl
    show (if (s.retype f).inboxOpen then _ else _) = Session.retype f (if s.inboxOpen then _ else _)
    rw [hopen]
    split
    · show Session.mk _ _ _ _ _ _ _ _ _ = Session.mk _ _ _ _ _ _ _ _ _
      rw [List.map_append]
      rfl
    · rfl

namespace CallStage

theorem hasTurn_retype (stage : CallStage) : (stage.retype f).hasTurn = stage.hasTurn := by
  cases stage <;> rfl

theorem isOver_retype (stage : CallStage) : (stage.retype f).isOver = stage.isOver := by
  cases stage <;> rfl

end CallStage

namespace Callers

theorem busy_retype (c : Callers) : (c.retype f).busy = c.busy := by
  unfold busy retype
  rw [List.any_map]
  exact congrArg c.callers.any (funext fun a => CallStage.hasTurn_retype f a.stage)

/-- **A caller does not look at types.** -/
theorem next_retype (s : Session) (busy : Bool) (r : Request) (stage : CallStage) :
    next (s.retype f) busy r (stage.retype f)
      = (next s busy r stage).map fun x => (x.1.retype f, x.2.retype f) := by
  obtain ⟨deviceId, peer, defaultTimeout, lastId, closed, inbox, inboxOpen, outbox, writerOpen⟩ := s
  cases stage with
  | entering => cases closed <;> rfl
  | queued => cases busy <;> rfl
  | clearing => cases inbox <;> rfl
  | numbered id => cases writerOpen <;> rfl
  | waiting id =>
    cases inbox with
    | nil => cases inboxOpen <;> rfl
    | cons m ms =>
      -- the message at hand is looked at twice: for its id and for its name
      show some (_, if Session.answers id (m.retype f) then
        CallStage.finished (some id) (Session.outcomeOf r.name (m.retype f)) else .waiting id) = _
      rw [Session.answers_retype, Session.outcomeOf_retype]
      unfold next
      dsimp only
      cases Session.answers id m <;> rfl
  | finished id outcome => rfl
  | cancelled => rfl

theorem setStage_retype (c : Callers) (i : Nat) (stage : CallStage) :
    (c.retype f).setStage i (stage.retype f) = (c.setStage i stage).retype f := by
  have hcallers : ((c.retype f).setStage i (stage.retype f)).callers
      = ((c.setStage i stage).retype f).callers := by
    apply List.ext_getElem?
    intro j
    unfold setStage retype
    dsimp only
    rw [List.getElem?_modify, List.getElem?_map, List.getElem?_map, List.getElem?_modify]
    cases c.callers[j]? with
    | none => rfl
    | some a => by_cases hij : i = j <;> simp [hij, Caller.retype]
  show Callers.mk _ _ = Callers.mk _ _
  exact congrArg (Callers.mk (c.session.retype f)) hcallers

theorem getElem?_retype (c : Callers) (i : Nat) :
    (c.retype f).callers[i]? = c.callers[i]?.map (·.retype f) := List.getElem?_map

theorem step_retype (c : Callers) (act : Act) :
    (c.retype f).step (act.retype f) = (c.step act).map (·.retype f) := by
  cases act with
  | join r =>
    show some (Callers.mk _ _) = some (Callers.mk _ _)
    unfold retype
    rw [List.map_append]
    rfl
  | proceed i =>
    show (c.retype f).callers[i]?.bind _ = (c.callers[i]?.bind _).map _
    rw [getElem?_retype, busy_retype]
    cases c.callers[i]? with
    | none => rfl
    | some a =>
      show (next (c.session.retype f) c.busy a.request (a.stage.retype f)).map _ = _
      rw [next_retype, Option.map_map]
      simp only [Option.bind_some, Option.map_map]
      congr 1
      funext x
      exact setStage_retype f { c with session := x.1 } i x.2
  | timeOut i =>
    show (c.retype f).callers[i]?.bind _ = (c.callers[i]?.bind _).map _
    rw [getElem?_retype]
    cases c.callers[i]? with
    | none => rfl
    | some a =>
      obtain ⟨r, stage⟩ := a
      cases stage with
      | waiting id =>
        exact congrArg some
          (setStage_retype f c i (.finished (some id) (.error (.timeout r.timeout))))
      | entering => rfl
      | queued => rfl
      | clearing => rfl
      | numbered id => rfl
      | finished id outcome => rfl
      | cancelled => rfl
  | cancel i =>
    show (c.retype f).callers[i]?.bind _ = (c.callers[i]?.bind _).map _
    rw [getElem?_retype]
    cases c.callers[i]? with
    | none => rfl
    | some a =>
      show (if (a.stage.retype f).isOver then none else some ((c.retype f).setStage i _)) = _
      rw [CallStage.isOver_retype, Option.bind_some]
      cases a.stage.isOver with
      | true => rfl
      | false => exact congrArg some (setStage_retype f c i .cancelled)
  | deliver d =>
    exact congrArg (fun s => some (Callers.mk s _)) (Session.deliver_retype f c.session d)
  | close => rfl
  | dropWriter => rfl

theorem run_retype (c : Callers) (acts : List Act) :
    (c.retype f).run (acts.map (·.retype f)) = (c.run acts).map (·.retype f) := by
  unfold run
  induction acts generalizing c with
  | nil => rfl
  | cons act acts ih =>
    rw [List.map_cons, List.foldlM_cons, List.foldlM_cons, step_retype]
    cases c.step act with
    | none => rfl
    | some c₁ => exact ih c₁

end Callers

end Retype

end KeywordRunner
