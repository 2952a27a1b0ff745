import KeywordRunner.Proofs.Session.Postings
import Mathlib.Tactic.IntervalCases

/-!
# Proofs.Session.Pairing — answers without ids go by turns

A device that answers each call once, in the order in which it gets them, need not name the calls.
Whoever posts a call keeps its turn until the answer is there, so no two calls are unanswered at a
time, and nobody who forgets what is left over has anything to forget.

* **`CallFate`** — how a call can end: with the answer in its own place, or without one.
* **`Callers.Paired`**, **`Paired.step`** — the invariant and the step.
* **`Paired.finished_of_stuck`** — no caller is left waiting.
* **`answers_in_turn`** — what follows for any number of callers and any order of steps.
-/

namespace KeywordRunner

open Wire (Message)

/-! ## What becomes of a call -/

/-- How the call of a caller ends, when this one has the place `i`: with the answer that the device
sent in the place of the call, or for lack of a session, of a writer, or of a device that still
answers. -/
inductive CallFate (posted : List Posting) (sent : List Message) (s : Session) (i : Nat)
    (r : Request) : Option UInt64 → Except CallFault Message → Prop where
  | answered {k : Nat} {id : UInt64} {m : Message} (hcall : posted[k]? = some ⟨i, r.message id⟩)
      (hreply : sent[k]? = some m) :
      CallFate posted sent s i r (some id) (Session.outcomeOf r.name m)
  | refused (hnever : ∀ p ∈ posted, p.caller ≠ i) :
      CallFate posted sent s i r none (.error (.notConnected s.deviceId))
  | noWriter {id : UInt64} (hnever : ∀ p ∈ posted, p.caller ≠ i) :
      CallFate posted sent s i r (some id) (.error (.connectionClosed s.deviceId))
  | hungUp {k : Nat} {id : UInt64} (hcall : posted[k]? = some ⟨i, r.message id⟩)
      (hnone : sent.length ≤ k) (hgone : s.inboxOpen = false) :
      CallFate posted sent s i r (some id) (.error (.connectionClosed s.deviceId))

/-- What there is to know of a caller at the place `i`, when so many answers have been taken. -/
def Caller.Paired (posted : List Posting) (taken : Nat) (sent : List Message) (s : Session)
    (i : Nat) (a : Caller) : Prop :=
  match a.stage with
  | .entering | .queued | .clearing | .numbered _ => ∀ p ∈ posted, p.caller ≠ i
  | .waiting id => ∃ before, posted = before ++ [⟨i, a.request.message id⟩] ∧
      taken ≤ before.length ∧ (before.length = taken ∨ s.inbox = [] ∧ s.inboxOpen = false)
  | .finished id outcome => CallFate posted sent s i a.request id outcome
  | .cancelled => False

section Extend

variable {posted new : List Posting} {taken taken' : Nat} {sent later : List Message}
  {s s' : Session} {i : Nat} {a : Caller}

/-- What others post and what the device sends does not change how a call ended. -/
theorem CallFate.extend {r : Request} {id : Option UInt64} {outcome : Except CallFault Message}
    (h : CallFate posted sent s i r id outcome) (hnew : ∀ p ∈ new, p.caller ≠ i)
    (hlater : s.inboxOpen = false → later = []) (hdevice : s'.deviceId = s.deviceId)
    (hopen : s.inboxOpen = false → s'.inboxOpen = false) :
    CallFate (posted ++ new) (sent ++ later) s' i r id outcome := by
  have hall : (∀ p ∈ posted, p.caller ≠ i) → ∀ p ∈ posted ++ new, p.caller ≠ i :=
    fun hposted => List.forall_mem_append.2 ⟨hposted, hnew⟩
  have hget : ∀ {β : Type} {l l' : List β} {k : Nat} {x : β}, l[k]? = some x →
      (l ++ l')[k]? = some x := by
    intro β l l' k x hx
    rw [List.getElem?_append_left (List.getElem?_eq_some_iff.1 hx).1, hx]
  cases h with
  | answered hcall hreply => exact .answered (hget hcall) (hget hreply)
  | refused hnever =>
    rw [← hdevice]
    exact .refused (hall hnever)
  | noWriter hnever =>
    rw [← hdevice]
    exact .noWriter (hall hnever)
  | hungUp hcall hnone hgone =>
    rw [← hdevice, hlater hgone, List.append_nil]
    exact .hungUp (hget hcall) hnone (hopen hgone)

/-- A caller that is not waiting is not concerned by what others do. -/
theorem Caller.Paired.extend (h : a.Paired posted taken sent s i)
    (hidle : ∀ id, a.stage ≠ .waiting id) (hnew : ∀ p ∈ new, p.caller ≠ i)
    (hlater : s.inboxOpen = false → later = []) (hdevice : s'.deviceId = s.deviceId)
    (hopen : s.inboxOpen = false → s'.inboxOpen = false) :
    a.Paired (posted ++ new) taken' (sent ++ later) s' i := by
  have hall : (∀ p ∈ posted, p.caller ≠ i) → ∀ p ∈ posted ++ new, p.caller ≠ i :=
    fun hposted => List.forall_mem_append.2 ⟨hposted, hnew⟩
  unfold Caller.Paired at h ⊢
  cases hstage : a.stage with
  | waiting id => exact absurd hstage (hidle id)
  | finished id outcome =>
    rw [hstage] at h
    exact CallFate.extend h hnew hlater hdevice hopen
  | entering | queued | clearing | numbered _ =>
    rw [hstage] at h
    exact hall h
  | cancelled =>
    rw [hstage] at h
    exact h

/-- Nor by what another takes. -/
theorem Caller.Paired.of_not_waiting (h : a.Paired posted taken sent s i)
    (hidle : ∀ id, a.stage ≠ .waiting id) (hdevice : s'.deviceId = s.deviceId)
    (hopen : s.inboxOpen = false → s'.inboxOpen = false) : a.Paired posted taken' sent s' i := by
  have hpaired : a.Paired (posted ++ []) taken' (sent ++ []) s' i :=
    h.extend hidle (fun _ hp => absurd hp List.not_mem_nil) (fun _ => rfl) hdevice hopen
  rwa [List.append_nil, List.append_nil] at hpaired

/-- Of its session it only concerns a caller what arrived and what can still arrive. -/
theorem Caller.Paired.of_same (h : a.Paired posted taken sent s i) (hinbox : s'.inbox = s.inbox)
    (hdevice : s'.deviceId = s.deviceId) (hopen : s.inboxOpen = false → s'.inboxOpen = false) :
    a.Paired posted taken sent s' i := by
  by_cases hwaits : ∃ id, a.stage = .waiting id
  · obtain ⟨id, hwaits⟩ := hwaits
    unfold Caller.Paired at h ⊢
    rw [hwaits] at h ⊢
    obtain ⟨before, hposted, hle, hall⟩ := h
    rw [hinbox]
    exact ⟨before, hposted, hle, hall.imp_right fun ⟨hempty, hgone⟩ => ⟨hempty, hopen hgone⟩⟩
  · exact h.of_not_waiting (fun id hstage => hwaits ⟨id, hstage⟩) hdevice hopen

end Extend

namespace Callers

variable {c c' : Callers} {act : Act} {acts : List Act} {i j : Nat} {a b : Caller} {s' : Session}
  {stage : CallStage} {posted : List Posting} {taken : List Receipt} {sent : List Message}

/-! ## The invariant -/

def NobodyWaits (c : Callers) : Prop :=
  ∀ (i : Nat) (a : Caller) (id : UInt64), c.callers[i]? = some a → a.stage ≠ .waiting id

/-- What holds at any time of the calls posted, the answers taken and the messages sent until then.
While somebody waits, the last call is the only one that may be unanswered; while nobody does, none
is, and nothing is left over. -/
structure Paired (posted : List Posting) (taken : List Receipt) (sent : List Message)
    (c : Callers) : Prop where
  turns : c.count CallStage.hasTurn ≤ 1
  unnamed : ∀ m ∈ c.session.inbox, m.id = none
  accounted : sent = taken.map (·.answer) ++ c.session.inbox
  answered : sent.length ≤ posted.length
  inTurn : taken.map (·.caller) <+: posted.map (·.caller)
  placed : ∀ p ∈ posted, p.caller < c.callers.length
  once : (posted.map (·.caller)).Nodup
  callers : ∀ (i : Nat) (a : Caller), c.callers[i]? = some a →
    a.Paired posted taken.length sent c.session i
  quiet : c.NobodyWaits → c.session.inbox = [] ∧
    (posted.length = taken.length ∨ c.session.inboxOpen = false)

theorem Paired.idle {s : Session} (h : s.inbox = []) : (idle s).Paired [] [] [] where
  turns := Nat.zero_le 1
  unnamed m hm := absurd (h ▸ hm) List.not_mem_nil
  accounted := h.symm
  answered := Nat.le_refl 0
  inTurn := List.prefix_rfl
  placed _ hp := absurd hp List.not_mem_nil
  once := List.nodup_nil
  callers _ _ hget := absurd hget (by simp [Callers.idle])
  quiet _ := ⟨h, Or.inl rfl⟩

/-! ## Who else there is -/

/-- While somebody has its turn and is not waiting, nobody waits. -/
theorem nobodyWaits_of_hasTurn (hturns : c.count CallStage.hasTurn ≤ 1)
    (hget : c.callers[i]? = some a) (hturn : a.stage.hasTurn = true)
    (hidle : ∀ id, a.stage ≠ .waiting id) : c.NobodyWaits := by
  intro j b id hb hwaiting
  have hij := eq_of_hasTurn hturns hget hb hturn (by rw [hwaiting]; rfl)
  subst hij
  cases hget.symm.trans hb
  exact hidle id hwaiting

/-- While somebody waits, nobody else does. -/
theorem not_waiting_of_ne (hturns : c.count CallStage.hasTurn ≤ 1) (hget : c.callers[i]? = some a)
    (hturn : a.stage.hasTurn = true) (hj : j ≠ i) (hb : c.callers[j]? = some b) :
    ∀ id, b.stage ≠ .waiting id :=
  fun _ hwaiting => hj (eq_of_hasTurn hturns hb hget (by rw [hwaiting]; rfl) hturn)

namespace Paired

variable (h : c.Paired posted taken sent)

include h

/-- The answers that have not been taken are of the last calls. -/
theorem length_taken_le : taken.length ≤ posted.length := by
  simpa using h.inTurn.length_le

theorem inbox_of_same (hinbox : s'.inbox = c.session.inbox) :
    (∀ m ∈ s'.inbox, m.id = none) ∧ sent = taken.map (·.answer) ++ s'.inbox :=
  hinbox ▸ ⟨h.unnamed, h.accounted⟩

/-- Who clears the inbox finds nothing in it. -/
theorem inbox_of_hasTurn (hget : c.callers[i]? = some a) (hturn : a.stage.hasTurn = true)
    (hidle : ∀ id, a.stage ≠ .waiting id) : c.session.inbox = [] :=
  (h.quiet (nobodyWaits_of_hasTurn h.turns hget hturn hidle)).1

/-- Who waits has posted the last call, and if an answer is there, the calls before have theirs. -/
theorem waiting_cases {id : UInt64} (hget : c.callers[i]? = some a)
    (hstage : a.stage = .waiting id) :
    ∃ before, posted = before ++ [⟨i, a.request.message id⟩] ∧ taken.length ≤ before.length ∧
      (before.length = taken.length ∨ c.session.inbox = [] ∧ c.session.inboxOpen = false) := by
  have hcaller := h.callers i a hget
  unfold Caller.Paired at hcaller
  rw [hstage] at hcaller
  exact hcaller

/-! ## What every step keeps -/

theorem join (r : Request) :
    Paired posted taken sent { c with callers := c.callers ++ [⟨r, .entering⟩] } := by
  have hold : ∀ {j : Nat} {b : Caller}, c.callers[j]? = some b →
      (c.callers ++ [⟨r, .entering⟩])[j]? = some b := by
    intro j b hb
    rw [List.getElem?_append_left (List.getElem?_eq_some_iff.1 hb).1, hb]
  refine ⟨?_, h.unnamed, h.accounted, h.answered, h.inTurn, fun p hp => ?_, h.once,
    fun j b hb => ?_, fun hnobody => h.quiet fun j b id hb => hnobody j b id (hold hb)⟩
  · rw [count_join, if_neg (by decide)]
    exact h.turns
  · rw [List.length_append]
    exact Nat.lt_add_right 1 (h.placed p hp)
  · by_cases hj : j < c.callers.length
    · exact h.callers j b ((List.getElem?_append_left hj).symm.trans hb)
    · rw [List.getElem?_append_right (Nat.not_lt.1 hj)] at hb
      rw [List.mem_singleton.1 (List.mem_of_getElem? hb)]
      -- calls are posted by callers that are there
      exact fun p hp heq => hj (heq ▸ h.placed p hp)

/-- One caller moves; it has not waited, posts nothing and does not wait afterwards. -/
theorem pass (hget : c.callers[i]? = some a)
    (hturns : (setStage { c with session := s' } i stage).count CallStage.hasTurn ≤ 1)
    (hinbox : s'.inbox = c.session.inbox) (hdevice : s'.deviceId = c.session.deviceId)
    (hopen : s'.inboxOpen = c.session.inboxOpen) (hidle : ∀ id, a.stage ≠ .waiting id)
    (hown : Caller.Paired posted taken.length sent s' i { a with stage }) :
    Paired posted taken sent (setStage { c with session := s' } i stage) := by
  obtain ⟨hunnamed, haccounted⟩ := h.inbox_of_same hinbox
  refine ⟨hturns, hunnamed, haccounted, h.answered, h.inTurn, ?_, h.once, fun j b hb => ?_,
    fun hnobody => ?_⟩
  · rw [length_setStage]
    exact h.placed
  · rcases getElem?_setStage hb with ⟨rfl, a', ha', rfl⟩ | ⟨_, hb⟩
    · cases hget.symm.trans ha'
      exact hown
    · exact (h.callers j b hb).of_same hinbox hdevice hopen.trans
  · refine (h.quiet fun j b id hb => ?_).imp hinbox.trans (·.imp_right hopen.trans)
    by_cases hj : j = i
    · subst hj
      cases hget.symm.trans hb
      exact hidle id
    · exact hnobody j b id ((getElem?_setStage_ne hj).trans hb)

/-- A caller posts its call. -/
theorem post {id : UInt64} (hget : c.callers[i]? = some a) (hstage : a.stage = .numbered id)
    (hturns : (setStage { c with session := s' } i (.waiting id)).count CallStage.hasTurn ≤ 1)
    (hinbox : s'.inbox = c.session.inbox) (hdevice : s'.deviceId = c.session.deviceId)
    (hopen : s'.inboxOpen = c.session.inboxOpen) :
    Paired (posted ++ [⟨i, a.request.message id⟩]) taken sent
      (setStage { c with session := s' } i (.waiting id)) := by
  have hturn : a.stage.hasTurn = true := by rw [hstage]; rfl
  have hnobody : c.NobodyWaits :=
    nobodyWaits_of_hasTurn h.turns hget hturn fun id hwaiting => by simp [hstage] at hwaiting
  obtain ⟨hempty, hall⟩ := h.quiet hnobody
  have hnever : ∀ p ∈ posted, p.caller ≠ i := by
    have hcaller := h.callers i a hget
    unfold Caller.Paired at hcaller
    rw [hstage] at hcaller
    exact hcaller
  obtain ⟨hunnamed, haccounted⟩ := h.inbox_of_same hinbox
  refine ⟨hturns, hunnamed, haccounted, ?_, ?_, ?_, ?_, fun j b hb => ?_, fun hnobody' => ?_⟩
  · rw [List.length_append]
    exact Nat.le_add_right_of_le h.answered
  · rw [List.map_append]
    exact h.inTurn.trans (List.prefix_append _ _)
  · rw [length_setStage]
    refine List.forall_mem_append.2 ⟨h.placed, fun p hp => ?_⟩
    rw [List.mem_singleton.1 hp]
    exact (List.getElem?_eq_some_iff.1 hget).1
  · rw [List.map_append]
    refine List.nodup_append.2 ⟨h.once, by simp, ?_⟩
    intro k hk k' hk'
    obtain ⟨p, hp, rfl⟩ := List.mem_map.1 hk
    rw [List.mem_singleton.1 hk']
    exact hnever p hp
  · show b.Paired _ taken.length sent s' j
    rcases getElem?_setStage hb with ⟨rfl, a', ha', rfl⟩ | ⟨hj, hb⟩
    · cases hget.symm.trans ha'
      refine ⟨posted, rfl, h.length_taken_le, ?_⟩
      rw [hinbox, hopen]
      exact hall.imp_right fun hgone => ⟨hempty, hgone⟩
    · have hnew : ∀ p ∈ [Posting.mk i (a.request.message id)], p.caller ≠ j := by
        intro p hp
        rw [List.mem_singleton.1 hp]
        exact Ne.symm hj
      have hpaired :
          b.Paired (posted ++ [⟨i, a.request.message id⟩]) taken.length (sent ++ []) s' j :=
        (h.callers j b hb).extend (hnobody j b · hb) hnew (fun _ => rfl) hdevice hopen.trans
      rwa [List.append_nil] at hpaired
  · exact absurd rfl (hnobody' i _ id (getElem?_setStage_self hget))

/-- A caller takes an answer: the one to its own call, and the only one there is. -/
theorem take {id : UInt64} {m : Message} {ms : List Message} (hget : c.callers[i]? = some a)
    (hstage : a.stage = .waiting id) (hinbox : c.session.inbox = m :: ms)
    (hturns : (setStage { c with session := { c.session with inbox := ms } } i (.finished (some id)
      (Session.outcomeOf a.request.name m))).count CallStage.hasTurn ≤ 1) :
    Paired posted (taken ++ [⟨i, id, m⟩]) sent
      (setStage { c with session := { c.session with inbox := ms } } i
        (.finished (some id) (Session.outcomeOf a.request.name m))) := by
  have hturn : a.stage.hasTurn = true := by rw [hstage]; rfl
  obtain ⟨before, hposted, _, hall⟩ := h.waiting_cases hget hstage
  have hbefore : before.length = taken.length := by
    rcases hall with hall | ⟨hempty, _⟩
    · exact hall
    · exact absurd (hinbox.symm.trans hempty) (by simp)
  have hsent : sent = taken.map (·.answer) ++ m :: ms := hinbox ▸ h.accounted
  have hms : ms = [] := by
    have hlength := h.answered
    rw [hsent, hposted] at hlength
    simp only [List.length_append, List.length_map, List.length_cons, List.length_nil] at hlength
    exact List.length_eq_zero_iff.1 (by omega)
  subst hms
  have hcallers : taken.map (·.caller) = before.map (·.caller) := by
    obtain ⟨rest, hrest⟩ := h.inTurn
    rw [hposted, List.map_append] at hrest
    exact List.append_inj_left hrest (by rw [List.length_map, List.length_map, hbefore])
  refine ⟨hturns, fun _ hm => absurd hm List.not_mem_nil, ?_, h.answered, ?_, ?_, h.once,
    fun j b hb => ?_, fun _ => ⟨rfl, Or.inl ?_⟩⟩
  · rw [List.map_append]
    exact hsent.trans (List.append_nil _).symm
  · rw [hposted, List.map_append, List.map_append, hcallers]
    exact List.prefix_rfl
  · rw [length_setStage]
    exact h.placed
  · rcases getElem?_setStage hb with ⟨rfl, a', ha', rfl⟩ | ⟨hj, hb⟩
    · cases hget.symm.trans ha'
      refine CallFate.answered (k := before.length) ?_ ?_
      · rw [hposted]
        exact List.getElem?_concat_length
      · rw [hsent, hbefore, ← List.length_map (·.answer)]
        exact List.getElem?_concat_length
    · exact (h.callers j b hb).of_not_waiting (not_waiting_of_ne h.turns hget hturn hj hb) rfl
        (fun hgone => hgone)
  · rw [hposted, List.length_append, List.length_append, hbefore]
    rfl

/-- A caller learns that no answer can come any more. -/
theorem hungUp {id : UInt64} (hget : c.callers[i]? = some a) (hstage : a.stage = .waiting id)
    (hturns : (c.setStage i (.finished (some id)
      (.error (.connectionClosed c.session.deviceId)))).count CallStage.hasTurn ≤ 1)
    (hinbox : c.session.inbox = []) (hopen : c.session.inboxOpen = false) :
    Paired posted taken sent
      (c.setStage i (.finished (some id) (.error (.connectionClosed c.session.deviceId)))) := by
  obtain ⟨before, hposted, hle, _⟩ := h.waiting_cases hget hstage
  have hsent : sent.length = taken.length := by
    rw [h.accounted, hinbox, List.append_nil, List.length_map]
  refine ⟨hturns, h.unnamed, h.accounted, h.answered, h.inTurn, ?_, h.once, fun j b hb => ?_,
    fun _ => ⟨hinbox, Or.inr hopen⟩⟩
  · rw [length_setStage]
    exact h.placed
  · rcases getElem?_setStage hb with ⟨rfl, a', ha', rfl⟩ | ⟨hj, hb⟩
    · cases hget.symm.trans ha'
      refine CallFate.hungUp (k := before.length) ?_ (hsent ▸ hle) hopen
      rw [hposted]
      exact List.getElem?_concat_length
    · exact h.callers j b hb

/-- The device answers. Somebody waits, since a call is unanswered, and that is the last one. -/
theorem message {m : Message} (hid : m.id = none) (hunanswered : sent.length < posted.length)
    (hopen : c.session.inboxOpen = true) (hinbox : s'.inbox = c.session.inbox ++ [m])
    (hdevice : s'.deviceId = c.session.deviceId) :
    Paired posted taken (sent ++ [m]) { c with session := s' } := by
  have hhears : c.session.inboxOpen ≠ false := by simp [hopen]
  have hsome : ¬c.NobodyWaits := by
    intro hnobody
    obtain ⟨hempty, hall | hgone⟩ := h.quiet hnobody
    · rw [h.accounted, hempty, List.append_nil, List.length_map] at hunanswered
      omega
    · exact hhears hgone
  refine ⟨h.turns, ?_, ?_, ?_, h.inTurn, h.placed, h.once, fun j b hb => ?_,
    fun hnobody => absurd hnobody hsome⟩
  · show ∀ m ∈ s'.inbox, m.id = none
    rw [hinbox]
    exact List.forall_mem_append.2 ⟨h.unnamed, fun m' hm' => List.mem_singleton.1 hm' ▸ hid⟩
  · show sent ++ [m] = taken.map (·.answer) ++ s'.inbox
    rw [h.accounted, hinbox, List.append_assoc]
  · rw [List.length_append]
    exact hunanswered
  · show b.Paired posted taken.length (sent ++ [m]) s' j
    by_cases hwaits : ∃ id, b.stage = .waiting id
    · obtain ⟨id, hwaits⟩ := hwaits
      obtain ⟨before, hposted, hle, hall | ⟨_, hgone⟩⟩ := h.waiting_cases hb hwaits
      · unfold Caller.Paired
        rw [hwaits]
        exact ⟨before, hposted, hle, Or.inl hall⟩
      · exact absurd hgone hhears
    · have hpaired : b.Paired (posted ++ []) taken.length (sent ++ [m]) s' j :=
        (h.callers j b hb).extend (fun id hstage => hwaits ⟨id, hstage⟩)
          (fun _ hp => absurd hp List.not_mem_nil) (fun hgone => absurd hgone hhears) hdevice
          (fun hgone => absurd hgone hhears)
      rwa [List.append_nil] at hpaired

/-- Nothing happens to the session but that it may be closed in some way. -/
theorem environment (hinbox : s'.inbox = c.session.inbox)
    (hdevice : s'.deviceId = c.session.deviceId)
    (hopen : c.session.inboxOpen = false → s'.inboxOpen = false) :
    Paired posted taken sent { c with session := s' } := by
  obtain ⟨hunnamed, haccounted⟩ := h.inbox_of_same hinbox
  refine ⟨h.turns, hunnamed, haccounted, h.answered, h.inTurn, h.placed, h.once,
    fun j b hb => (h.callers j b hb).of_same hinbox hdevice hopen, fun hnobody => ?_⟩
  exact (h.quiet hnobody).imp hinbox.trans (·.imp_right hopen)

end Paired

theorem answers_of_unnamed {id : UInt64} {m : Message} (h : m.id = none) :
    Session.answers id m = true := by
  unfold Session.answers
  rw [h]

/-- **The step.** -/
theorem Paired.step (h : c.Paired posted taken sent) (hstep : c.Steps act c')
    (htime : ∀ i, act ≠ .timeOut i) (hkeep : ∀ i, act ≠ .cancel i)
    (hdevice : ∀ m, act = .deliver (.message m) →
      m.id = none ∧ sent.length < posted.length ∧ c.session.inboxOpen = true) :
    c'.Paired (posted ++ (c.posting? act).toList) (taken ++ (c.receipt? act).toList)
      (sent ++ delivered [act]) := by
  have hturns := count_hasTurn_le_one hstep h.turns
  -- most steps leave nothing behind
  have hsame (hpaired : c'.Paired posted taken sent) :
      c'.Paired (posted ++ []) (taken ++ []) (sent ++ []) := by
    rwa [List.append_nil, List.append_nil, List.append_nil]
  cases hstep with
  | join r => exact hsame (h.join r)
  | @proceed i caller s' stage' hget hmove =>
    rw [posting?_proceed hget, receipt?_proceed hget]
    have hcaller := h.callers i caller hget
    unfold Caller.Paired at hcaller
    generalize hstage : caller.stage = old at hmove ⊢
    rw [hstage] at hcaller
    have hempty : old.hasTurn = true → (∀ id, old ≠ .waiting id) → c.session.inbox = [] := by
      intro hturn hidle
      exact h.inbox_of_hasTurn hget (hstage ▸ hturn) (hstage ▸ hidle)
    cases hmove with
    | refused _ => 
      exact hsame (h.pass hget hturns rfl rfl rfl (by simp [hstage]) (.refused hcaller))
    | lineUp _ => exact hsame (h.pass hget hturns rfl rfl rfl (by simp [hstage]) hcaller)
    | turn _ => exact hsame (h.pass hget hturns rfl rfl rfl (by simp [hstage]) hcaller)
    | forget hinbox =>
      exact absurd (hinbox.symm.trans (hempty rfl (by simp))) (by simp)
    | number _ => exact hsame (h.pass hget hturns rfl rfl rfl (by simp [hstage]) hcaller)
    | @post id hwriter =>
      dsimp only
      rw [if_pos hwriter]
      show Paired (posted ++ [⟨i, caller.request.message id⟩]) (taken ++ []) (sent ++ []) _
      rw [List.append_nil, List.append_nil]
      exact h.post hget hstage hturns rfl rfl rfl
    | noWriter hwriter =>
      dsimp only
      rw [hwriter]
      exact hsame (h.pass hget hturns rfl rfl rfl (by simp [hstage]) (.noWriter hcaller))
    | @skip id m ms hinbox hlate =>
      -- what the device sends answers whoever looks at it
      have hunnamed := h.unnamed m (hinbox ▸ List.mem_cons_self)
      exact absurd (hlate.symm.trans (answers_of_unnamed hunnamed)) (by simp)
    | @take id m ms hinbox hanswer =>
      dsimp only
      rw [hinbox]
      dsimp only
      rw [if_pos hanswer]
      show Paired (posted ++ []) (taken ++ [⟨i, id, m⟩]) (sent ++ []) _
      rw [List.append_nil, List.append_nil]
      exact h.take hget hstage hinbox hturns
    | hungUp hinbox hopen =>
      dsimp only
      rw [hinbox]
      exact hsame (h.hungUp hget hstage hturns hinbox hopen)
  | timeOut _ _ => exact absurd rfl (htime _)
  | cancel _ _ => exact absurd rfl (hkeep _)
  | deliver d =>
    cases d with
    | message m =>
      obtain ⟨hid, hunanswered, hopen⟩ := hdevice m rfl
      have hsession : c.session.deliver (.message m)
          = { c.session with inbox := c.session.inbox ++ [m] } := if_pos hopen
      show Paired (posted ++ []) (taken ++ []) (sent ++ [m]) _
      rw [List.append_nil, List.append_nil, hsession]
      exact h.message hid hunanswered hopen rfl rfl
    | hangUp => exact hsame (h.environment rfl rfl fun _ => rfl)
  | close => exact hsame (h.environment rfl rfl fun hgone => hgone)
  | dropWriter => exact hsame (h.environment rfl rfl fun hgone => hgone)

/-! ## Runs -/

/-- The invariant holds after every run in which the device answers in turn and nobody stops
waiting. -/
theorem Paired.of_run {s : Session} (hinbox : s.inbox = []) (hopen : s.inboxOpen = true)
    (hdevice : (Callers.idle s).AnswersInTurn acts) (htime : ∀ i, .timeOut i ∉ acts)
    (hkeep : ∀ i, .cancel i ∉ acts) (hrun : (Callers.idle s).run acts = some c) :
    c.Paired ((Callers.idle s).postings acts) ((Callers.idle s).receipts acts) (delivered acts) ∧
      (.deliver .hangUp ∉ acts → c.session.inboxOpen = true) := by
  induction acts using List.reverseRecOn generalizing c with
  | nil =>
    cases hrun
    exact ⟨Paired.idle hinbox, fun _ => hopen⟩
  | append_singleton acts act ih =>
    obtain ⟨c₁, hrest, hstep⟩ := exists_run_of_concat hrun
    have hsteps := steps_of_step hstep
    have hbefore : ∀ {act' : Act}, act' ∉ acts ++ [act] → act' ∉ acts ∧ act ≠ act' := by
      intro act' hmem
      exact ⟨fun h => hmem (List.mem_append_left _ h),
        fun h => hmem (h ▸ List.mem_append_right _ (List.mem_singleton_self _))⟩
    obtain ⟨hpaired, hhears⟩ := ih hdevice.of_concat (fun i => (hbefore (htime i)).1)
      (fun i => (hbefore (hkeep i)).1) hrest
    constructor
    · rw [postings_concat hrest, receipts_concat hrest, delivered_concat]
      refine hpaired.step hsteps (fun i => (hbefore (htime i)).2)
        (fun i => (hbefore (hkeep i)).2) ?_
      rintro m rfl
      obtain ⟨hid, hunanswered, hstays⟩ := hdevice.last
      exact ⟨hid, hunanswered, hhears hstays⟩
    · intro hstays
      rw [inboxOpen_of_step hsteps (hbefore hstays).2]
      exact hhears (hbefore hstays).1

/-! ## When nobody can go on -/

theorem next_eq_none (hget : c.callers[i]? = some a) (hstuck : c.step (.proceed i) = none) :
    next c.session c.busy a.request a.stage = none := by
  unfold step at hstuck
  dsimp only at hstuck
  rw [hget, Option.bind_some] at hstuck
  exact Option.map_eq_none_iff.1 hstuck

theorem stuck_of_isOver (hover : (c.callers.all fun a => a.stage.isOver) = true) (i : Nat) :
    c.step (.proceed i) = none := by
  show (c.callers[i]?.bind _) = none
  cases hget : c.callers[i]? with
  | none => rfl
  | some a =>
    have hstage := List.all_eq_true.1 hover a (List.mem_of_getElem? hget)
    obtain ⟨r, stage⟩ := a
    cases stage with
    | finished _ _ | cancelled => rfl
    | entering | queued | clearing | numbered _ | waiting _ =>
      exact absurd hstage (by simp [CallStage.isOver])

namespace Paired

variable (h : c.Paired posted taken sent)

include h

/-- If all calls are answered, whoever has its turn can go on. -/
theorem next_isSome_of_hasTurn (hall : sent.length = posted.length)
    (hget : c.callers[i]? = some a) (hturn : a.stage.hasTurn = true) :
    (next c.session c.busy a.request a.stage).isSome = true := by
  unfold next
  cases hstage : a.stage with
  | clearing =>
    dsimp only
    split <;> rfl
  | numbered id =>
    dsimp only
    split <;> rfl
  | waiting id =>
    dsimp only
    split
    · rfl
    · next hempty =>
      split
      · next hopen =>
        -- otherwise the last call would be unanswered
        obtain ⟨before, hposted, _, hlength | ⟨_, hgone⟩⟩ := h.waiting_cases hget hstage
        · rw [h.accounted, hempty, hposted] at hall
          simp only [List.append_nil, List.length_map, List.length_append, List.length_cons,
            List.length_nil] at hall
          omega
        · exact absurd (hopen.symm.trans hgone) (by simp)
      · rfl
  | entering | queued | finished _ _ | cancelled =>
    exact absurd hturn (by simp [hstage, CallStage.hasTurn])

/-- If all calls are answered and nobody can go on, then all calls are over. -/
theorem finished_of_stuck (hall : sent.length = posted.length)
    (hstuck : ∀ i, c.step (.proceed i) = none) (hget : c.callers[i]? = some a) :
    ∃ id outcome, a.stage = .finished id outcome := by
  have hnone : ∀ {j : Nat} {b : Caller}, c.callers[j]? = some b → b.stage.hasTurn = false := by
    intro j b hb
    by_contra hturn
    have hsome := h.next_isSome_of_hasTurn hall hb (by simpa using hturn)
    rw [next_eq_none hb (hstuck j)] at hsome
    exact absurd hsome (by simp)
  have hfree : c.busy = false := by
    refine List.any_eq_false.2 fun b hb => ?_
    obtain ⟨j, hj⟩ := List.mem_iff_getElem?.1 hb
    simp [hnone hj]
  have hnext := next_eq_none hget (hstuck i)
  have hturn := hnone hget
  cases hstage : a.stage with
  | finished id outcome => exact ⟨id, outcome, rfl⟩
  | entering => exact absurd (hstage ▸ hnext) (by simp [next])
  | queued => exact absurd (hstage ▸ hnext) (by simp [next, hfree])
  | cancelled =>
    have hcaller := h.callers i a hget
    unfold Caller.Paired at hcaller
    rw [hstage] at hcaller
    exact hcaller.elim
  | clearing | numbered _ | waiting _ => exact absurd hturn (by simp [hstage, CallStage.hasTurn])

end Paired

/-! ## Any number of callers, in any order -/

/-- **Answers without ids reach their callers.** The calls of a run are in the queue in the order in
which they were posted, each by another caller. A caller whose call is over has the message that the
device sent in the place of that call, unless the call was never posted or the device hung up before
that. No answer is lost: each has been taken, in order and by the caller of its call, or is about to
be taken by one that waits. And when all calls are answered and nobody can go on, all are over. -/
theorem answers_in_turn {s : Session} (hinbox : s.inbox = []) (hopen : s.inboxOpen = true)
    (hdevice : (idle s).AnswersInTurn acts) (htime : ∀ i, .timeOut i ∉ acts)
    (hkeep : ∀ i, .cancel i ∉ acts) (hrun : (idle s).run acts = some c) :
    c.session.calls = s.calls ++ ((idle s).postings acts).map (·.call) ∧
    (((idle s).postings acts).map (·.caller)).Nodup ∧
    (∀ (i : Nat) (a : Caller) (id : Option UInt64) (outcome : Except CallFault Message),
      c.callers[i]? = some a → a.stage = .finished id outcome →
        CallFate ((idle s).postings acts) (delivered acts) c.session i a.request id outcome) ∧
    ((idle s).receipts acts).map (·.caller) <+: ((idle s).postings acts).map (·.caller) ∧
    delivered acts = ((idle s).receipts acts).map (·.answer) ++ c.session.inbox ∧
    (c.NobodyWaits → c.session.inbox = []) ∧
    ((∀ i, c.step (.proceed i) = none) →
      (delivered acts).length = ((idle s).postings acts).length →
        (∀ (i : Nat) (a : Caller), c.callers[i]? = some a →
          ∃ id outcome, a.stage = .finished id outcome) ∧ c.session.inbox = []) := by
  obtain ⟨h, _⟩ := Paired.of_run hinbox hopen hdevice htime hkeep hrun
  refine ⟨calls_of_run hrun, h.once, fun i a id outcome hget hover => ?_, h.inTurn, h.accounted,
    fun hnobody => (h.quiet hnobody).1, fun hstuck hall => ?_⟩
  · have hcaller := h.callers i a hget
    unfold Caller.Paired at hcaller
    rw [hover] at hcaller
    exact hcaller
  · have hover := fun i a hget => h.finished_of_stuck (i := i) (a := a) hall hstuck hget
    refine ⟨hover, (h.quiet fun i a id hget hwaiting => ?_).1⟩
    obtain ⟨id', outcome, hfinished⟩ := hover i a hget
    exact absurd (hwaiting.symm.trans hfinished) (by simp)

/-- Two callers come at once, and the second one gets its turn first. The device echoes their names,
so answers that are crossed would show. -/
theorem two_callers_get_their_own_answers :
    let s := Session.connect "d" none Session.standardTimeout
    let request := fun name : String => (⟨name, [], Session.standardTimeout, .plain⟩ : Request)
    let reply := fun name : String => Act.deliver (.message ⟨none, .result, .plain, name, []⟩)
    let acts : List Act := [.join (request "alpha"), .join (request "beta"), .proceed 0, .proceed 1,
      .proceed 1, .proceed 1, .proceed 1, reply "beta", .proceed 1, .proceed 0, .proceed 0,
      .proceed 0, reply "alpha", .proceed 0]
    ∃ c, (idle s).AnswersInTurn acts ∧ (idle s).run acts = some c ∧
      (∀ (i : Nat) (a : Caller), c.callers[i]? = some a →
        ∃ id outcome, a.stage = .finished id outcome) ∧ c.session.inbox = [] ∧
      ((idle s).receipts acts).map (fun r => (r.caller, r.answer.name))
        = [(1, "beta"), (0, "alpha")] := by
  intro s request reply acts
  have hdevice : (idle s).AnswersInTurn acts := by
    intro k m hget
    have hlt : k < 14 := (List.getElem?_eq_some_iff.1 hget).1
    have hplace : k = 7 ∨ k = 12 := by
      interval_cases k <;> simp [acts, reply] at hget ⊢
    rcases hplace with rfl | rfl
    · cases hget
      exact ⟨rfl, by decide, by simp [acts, reply]⟩
    · cases hget
      exact ⟨rfl, by decide, by simp [acts, reply]⟩
  have hsome : ((idle s).run acts).isSome = true := by rfl
  obtain ⟨c, hrun⟩ := Option.isSome_iff_exists.1 hsome
  have htime : ∀ i, .timeOut i ∉ acts := by simp [acts, reply]
  have hkeep : ∀ i, .cancel i ∉ acts := by simp [acts, reply]
  have hall : ((idle s).run acts).map (·.callers.all (·.stage.isOver)) = some true := by rfl
  rw [hrun, Option.map_some] at hall
  have hstuck : ∀ i, c.step (.proceed i) = none := stuck_of_isOver (Option.some.inj hall)
  obtain ⟨_, _, _, _, _, _, hend⟩ := answers_in_turn rfl rfl hdevice htime hkeep hrun
  obtain ⟨hover, hempty⟩ := hend hstuck (by rfl)
  exact ⟨c, hdevice, hrun, hover, hempty, by rfl⟩

end Callers

end KeywordRunner
