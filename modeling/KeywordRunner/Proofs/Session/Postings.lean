import KeywordRunner.Proofs.Session.Sources
import Mathlib.Data.List.Induction

/-!
# Proofs.Session.Postings — what a run leaves behind

A run of callers and device as the list of calls posted in it, next to the answers taken and the
messages delivered; and a device of which all that is known is the order of its answers.

* **`Callers.collect`** — what the acts of a run give; one act more gives what it gives in the end.
* **`Callers.postings`** — the calls of a run with the callers that posted them; **`calls_of_run`**,
  these are the calls in the queue.
* **`Callers.AnswersInTurn`** — a device that answers each call once, in order, and sends nothing
  else.
-/

namespace KeywordRunner

open Wire (Message)

/-- A call that a caller has posted: the caller's place among the callers, and the call. -/
structure Posting where
  caller : Nat
  call : Message

namespace Callers

variable {α : Type} {c c' c₁ : Callers} {act : Act} {acts : List Act} {i j : Nat} {a : Caller}
  {stage : CallStage}

/-! ## What a run leaves behind -/

/-- What the acts of a run give, each in the situation in which it happens. -/
def collect (f : Callers → Act → Option α) (c : Callers) : List Act → List α
  | [] => []
  | act :: acts =>
    (f c act).toList ++
      match c.step act with
      | some c' => c'.collect f acts
      | none => []

/-- The call that is posted by an act, if it is one that posts a call. -/
def posting? (c : Callers) : Act → Option Posting
  | .proceed i =>
    match c.callers[i]? with
    | some ⟨r, .numbered id⟩ => if c.session.writerOpen then some ⟨i, r.message id⟩ else none
    | _ => none
  | _ => none

/-- The calls that are posted in a run. -/
def postings (c : Callers) (acts : List Act) : List Posting := c.collect posting? acts

theorem receipts_eq_collect (c : Callers) (acts : List Act) :
    c.receipts acts = c.collect receipt? acts := by
  induction acts generalizing c with
  | nil => rfl
  | cons act acts ih =>
    unfold receipts collect
    cases c.step act with
    | none => rfl
    | some c' => exact congrArg ((c.receipt? act).toList ++ ·) (ih c')

theorem collect_concat (f : Callers → Act → Option α) (hrun : c.run acts = some c₁) :
    c.collect f (acts ++ [act]) = c.collect f acts ++ (f c₁ act).toList := by
  induction acts generalizing c with
  | nil =>
    cases hrun
    show (f c₁ act).toList ++ _ = [] ++ _
    cases c₁.step act <;> exact List.append_nil _
  | cons act' acts ih =>
    unfold run at hrun
    rw [List.foldlM_cons] at hrun
    obtain ⟨c', hstep, hrest⟩ := Option.bind_eq_some_iff.1 hrun
    rw [List.cons_append, collect, collect, hstep]
    dsimp only
    rw [ih hrest, List.append_assoc]

theorem postings_concat (hrun : c.run acts = some c₁) :
    c.postings (acts ++ [act]) = c.postings acts ++ (c₁.posting? act).toList :=
  collect_concat posting? hrun

theorem receipts_concat (hrun : c.run acts = some c₁) :
    c.receipts (acts ++ [act]) = c.receipts acts ++ (c₁.receipt? act).toList := by
  rw [receipts_eq_collect, receipts_eq_collect, collect_concat receipt? hrun]

theorem delivered_concat (acts : List Act) (act : Act) :
    delivered (acts ++ [act]) = delivered acts ++ delivered [act] :=
  List.filterMap_append

theorem exists_run_of_concat (h : c.run (acts ++ [act]) = some c') :
    ∃ c₁, c.run acts = some c₁ ∧ c₁.step act = some c' := by
  unfold run at h
  rw [List.foldlM_append] at h
  obtain ⟨c₁, hrun, hlast⟩ := Option.bind_eq_some_iff.1 h
  rw [List.foldlM_cons] at hlast
  obtain ⟨c₂, hstep, hnil⟩ := Option.bind_eq_some_iff.1 hlast
  cases hnil
  exact ⟨c₁, hrun, hstep⟩

/-! ## Steps -/

theorem posting?_proceed (hget : c.callers[i]? = some a) :
    c.posting? (.proceed i) = match a.stage with
      | .numbered id => if c.session.writerOpen then some ⟨i, a.request.message id⟩ else none
      | _ => none := by
  unfold posting?
  dsimp only
  rw [hget]
  obtain ⟨r, stage⟩ := a
  cases stage <;> rfl

theorem receipt?_proceed (hget : c.callers[i]? = some a) :
    c.receipt? (.proceed i) = match a.stage, c.session.inbox with
      | .waiting id, m :: _ => if Session.answers id m then some ⟨i, id, m⟩ else none
      | _, _ => none := by
  unfold receipt?
  dsimp only
  rw [hget, Option.map_some]
  obtain ⟨r, stage⟩ := a
  cases stage <;> cases c.session.inbox <;> rfl

/-- The calls in the queue are those that were posted. -/
theorem calls_of_step (hstep : c.Steps act c') :
    c'.session.calls = c.session.calls ++ (c.posting? act).toList.map (·.call) := by
  have hnone : c.session.calls = c.session.calls ++ ([] : List Posting).map (·.call) :=
    (List.append_nil _).symm
  cases hstep with
  | @proceed i caller s' stage' hget hmove =>
    rw [posting?_proceed hget]
    generalize caller.stage = old at hmove ⊢
    cases hmove with
    | post hwriter =>
      dsimp only
      rw [if_pos hwriter]
      exact Session.calls_post ..
    | noWriter hwriter =>
      dsimp only
      rw [hwriter]
      exact hnone
    | refused _ | lineUp _ | turn _ | forget _ | number _ | skip _ _ | take _ _ | hungUp _ _ =>
      exact hnone
  | deliver d =>
    show (c.session.deliver d).calls = _
    rw [Session.calls_congr (deliver_frame c.session d).2.1]
    exact hnone
  | join _ | timeOut _ _ | cancel _ _ | close | dropWriter => exact hnone

/-- As long as the device does not hang up, what it sends arrives. -/
theorem inboxOpen_of_step (hstep : c.Steps act c') (hact : act ≠ .deliver .hangUp) :
    c'.session.inboxOpen = c.session.inboxOpen := by
  cases hstep with
  | proceed _ hmove =>
    generalize Caller.stage _ = old at hmove
    cases hmove <;> rfl
  | deliver d =>
    cases d with
    | hangUp => exact absurd rfl hact
    | message m =>
      show (if c.session.inboxOpen then { c.session with inbox := c.session.inbox ++ [m] }
        else c.session).inboxOpen = _
      split <;> rfl
  | join _ | timeOut _ _ | cancel _ _ | close | dropWriter => rfl

theorem getElem?_setStage_self (h : c.callers[i]? = some a) :
    (c.setStage i stage).callers[i]? = some { a with stage } := by
  show (c.callers.modify i _)[i]? = _
  rw [List.getElem?_modify_eq, h]
  rfl

theorem getElem?_setStage_ne (h : j ≠ i) : (c.setStage i stage).callers[j]? = c.callers[j]? :=
  List.getElem?_modify_ne _ _ fun hij => h hij.symm

/-! ## Runs -/

theorem calls_of_run (hrun : c.run acts = some c') :
    c'.session.calls = c.session.calls ++ (c.postings acts).map (·.call) := by
  induction acts using List.reverseRecOn generalizing c' with
  | nil =>
    cases hrun
    exact (List.append_nil _).symm
  | append_singleton acts act ih =>
    obtain ⟨c₁, hrest, hstep⟩ := exists_run_of_concat hrun
    rw [calls_of_step (steps_of_step hstep), ih hrest, postings_concat hrest, List.map_append,
      List.append_assoc]

/-! ## A device that answers in turn -/

/-- Whenever the device sends a message, this has no id and there is a call that the device has not
answered yet. After it has hung up it sends nothing. -/
def AnswersInTurn (c : Callers) (acts : List Act) : Prop :=
  ∀ (k : Nat) (m : Message), acts[k]? = some (.deliver (.message m)) →
    m.id = none ∧ (delivered (acts.take k)).length < (c.postings (acts.take k)).length ∧
      Act.deliver .hangUp ∉ acts.take k

theorem AnswersInTurn.of_concat (h : c.AnswersInTurn (acts ++ [act])) : c.AnswersInTurn acts := by
  intro k m hget
  obtain ⟨hlt, _⟩ := List.getElem?_eq_some_iff.1 hget
  have hall := h k m ((List.getElem?_append_left hlt).trans hget)
  rw [List.take_append_of_le_length (Nat.le_of_lt hlt)] at hall
  exact hall

theorem AnswersInTurn.last {m : Message} (h : c.AnswersInTurn (acts ++ [.deliver (.message m)])) :
    m.id = none ∧ (delivered acts).length < (c.postings acts).length ∧
      Act.deliver .hangUp ∉ acts := by
  have hlast := h acts.length m List.getElem?_concat_length
  rw [List.take_left] at hlast
  exact hlast

end Callers

end KeywordRunner
