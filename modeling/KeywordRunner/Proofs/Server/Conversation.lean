import KeywordRunner.Proofs.Wire.Stream
import KeywordRunner.Server.Connection

/-!
# Proofs.Server.Conversation — what a device's messages lead to

`conversation` says what a connection does about a list of messages, from the first one to the
teardown. Four kinds of dialogue can come about (`Stands`): in each of them the phase settles
whether there is a session and whether messages can be passed to it, so that no step between phases
is ever refused. What the buffer makes of a stream comes in by `drain_eq`.

* **`hold_start`** — the messages of a device lead to their conversation, and the end is closed.
* **`serve_eq`** — so does a stream in any pieces, with the messages of its complete lines.
-/

namespace KeywordRunner.Server

open Wire (FrameBuffer FrameFault Message cut verdict? maxFrameSize)

/-! ## The conversation -/

/-- What is done once no more messages of a registered device count. -/
def farewell : List Effect := [.unlist, .retire, .hangUp, .stopWriter]

/-- What is done about the messages of a registered device. -/
def service : List Message → List Effect
  | [] => farewell
  | m :: ms => if m.isKillSignal then farewell else .deliver m :: service ms

/-- What is done about the messages of a device. -/
def conversation : List Message → List Effect
  | [] => [.stopWriter]
  | m :: ms =>
    match m.registerDeviceId? with
    | none => .reply .error :: conversation ms
    | some deviceId => .enlist deviceId :: .announce :: .reply .ok :: service ms

theorem service_eq (ms : List Message) :
    service ms = (ms.takeWhile fun m => !m.isKillSignal).map .deliver ++ farewell := by
  induction ms with
  | nil => rfl
  | cons m ms ih =>
    rw [service]
    by_cases hkill : m.isKillSignal = true
    · rw [if_pos hkill, List.takeWhile_cons_of_neg (by simp [hkill])]
      rfl
    · rw [if_neg hkill, List.takeWhile_cons_of_pos (by simp [hkill]), ih]
      rfl

theorem conversation_of_none {ms : List Message} (h : ∀ m ∈ ms, m.registerDeviceId? = none) :
    conversation ms = ms.map (fun _ => .reply .error) ++ [.stopWriter] := by
  induction ms with
  | nil => rfl
  | cons m ms ih =>
    obtain ⟨hm, hms⟩ := List.forall_mem_cons.1 h
    rw [conversation, hm, ih hms]
    rfl

theorem conversation_of_some {before after : List Message} {m : Message} {deviceId : String}
    (hbefore : ∀ m ∈ before, m.registerDeviceId? = none)
    (hm : m.registerDeviceId? = some deviceId) :
    conversation (before ++ m :: after)
      = before.map (fun _ => .reply .error) ++ [.enlist deviceId, .announce, .reply .ok]
        ++ (after.takeWhile fun m => !m.isKillSignal).map .deliver ++ farewell := by
  induction before with
  | nil =>
    rw [List.nil_append, conversation, hm, service_eq]
    rfl
  | cons b before ih =>
    obtain ⟨hb, hbefore⟩ := List.forall_mem_cons.1 hbefore
    rw [List.cons_append, conversation, hb, ih hbefore]
    rfl

/-! ## The order of a conversation -/

/-- Where an effect stands in a conversation. -/
def Effect.rank : Effect → Nat
  | .reply m => if m.isOk then 2 else 0
  | .enlist _ => 1
  | .announce => 2
  | .deliver _ => 3
  | .unlist => 4
  | .retire => 5
  | .hangUp => 6
  | .complain _ => 7
  | .stopWriter => 8

theorem rank_reply_le (m : Message) : (Effect.reply m).rank ≤ 2 := by
  show (if m.isOk then 2 else 0) ≤ 2
  split <;> omega

/-- What comes first stands no later, and no second session is enlisted. -/
def Effect.Precedes (a b : Effect) : Prop := a.rank ≤ b.rank ∧ (a.rank = 1 → b.rank ≠ 1)

theorem pairwise_service (ms : List Message) :
    (service ms).Pairwise Effect.Precedes ∧ ∀ e ∈ service ms, 3 ≤ e.rank := by
  have hlast : farewell.Pairwise Effect.Precedes ∧ ∀ e ∈ farewell, 3 ≤ e.rank := by
    simp [farewell, Effect.Precedes, Effect.rank]
  induction ms with
  | nil => exact hlast
  | cons m ms ih =>
    obtain ⟨hpairs, hranks⟩ := ih
    rw [service]
    split
    · exact hlast
    · have hfirst : ∀ e ∈ service ms, (Effect.deliver m).Precedes e := fun e he =>
        ⟨hranks e he, fun h => absurd h (by simp [Effect.rank])⟩
      exact ⟨List.pairwise_cons.2 ⟨hfirst, hpairs⟩,
        List.forall_mem_cons.2 ⟨Nat.le_refl 3, hranks⟩⟩

theorem pairwise_conversation (ms : List Message) :
    (conversation ms).Pairwise Effect.Precedes := by
  -- an error reply stands before everything; from the introduction on the list is spelled out
  induction ms with
  | nil => exact List.pairwise_singleton _ _
  | cons m ms ih =>
    rw [conversation]
    cases m.registerDeviceId? with
    | none =>
      have hzero : (Effect.reply .error).rank = 0 := rfl
      refine List.pairwise_cons.2 ⟨fun e _ => ⟨?_, fun h => ?_⟩, ih⟩
      · rw [hzero]
        exact Nat.zero_le _
      · rw [hzero] at h
        exact absurd h (by decide)
    | some deviceId =>
      obtain ⟨hpairs, hranks⟩ := pairwise_service ms
      have htwo : (Effect.reply .ok).rank = 2 := rfl
      have hlater : ∀ a : Effect, a.rank ≤ 2 → ∀ e ∈ service ms, a.Precedes e := fun a ha e he => by
        have := hranks e he
        exact ⟨by omega, fun _ => by omega⟩
      have hreply := List.pairwise_cons.2 ⟨hlater (.reply .ok) (Nat.le_of_eq htwo), hpairs⟩
      have hannounce := List.pairwise_cons.2
        ⟨List.forall_mem_cons.2 ⟨show Effect.announce.Precedes (.reply .ok) from
          ⟨Nat.le_refl 2, fun _ => by decide⟩, hlater .announce (Nat.le_refl 2)⟩, hreply⟩
      have hone : (Effect.enlist deviceId).rank = 1 := rfl
      have hfirst : ∀ e ∈ .announce :: .reply .ok :: service ms,
          (Effect.enlist deviceId).Precedes e := by
        refine List.forall_mem_cons.2 ⟨?_, List.forall_mem_cons.2
          ⟨?_, hlater (.enlist deviceId) (by rw [hone]; omega)⟩⟩
        · exact ⟨by simp [Effect.rank], by simp [Effect.rank]⟩
        · exact ⟨by rw [hone, htwo]; omega, fun _ => by rw [htwo]; decide⟩
      exact List.pairwise_cons.2 ⟨hfirst, hannounce⟩

section Order

variable {done later : List Effect} {e : Effect} {ms : List Message}

theorem precedes_of_mem_done (h : done ++ e :: later = conversation ms) :
    ∀ x ∈ done, x.Precedes e := by
  have hpairs := pairwise_conversation ms
  rw [← h] at hpairs
  exact fun x hx => (List.pairwise_append.1 hpairs).2.2 x hx e List.mem_cons_self

theorem precedes_of_mem_later (h : done ++ e :: later = conversation ms) :
    ∀ x ∈ later, e.Precedes x := by
  have hpairs := pairwise_conversation ms
  rw [← h] at hpairs
  exact (List.pairwise_cons.1 (List.pairwise_append.1 hpairs).2.1).1

/-- Before a session is enlisted there is nothing but replies. -/
theorem reply_of_mem_before_enlist {deviceId : String}
    (h : done ++ .enlist deviceId :: later = conversation ms) :
    ∀ x ∈ done, ∃ m, x = .reply m := by
  intro x hx
  obtain ⟨hrank, hone⟩ := precedes_of_mem_done h x hx
  cases x with
  | reply m => exact ⟨m, rfl⟩
  | enlist _ => exact absurd rfl (hone rfl)
  | announce => exact absurd hrank (by simp [Effect.rank])
  | deliver m => exact absurd hrank (by simp [Effect.rank])
  | unlist => exact absurd hrank (by simp [Effect.rank])
  | retire => exact absurd hrank (by simp [Effect.rank])
  | hangUp => exact absurd hrank (by simp [Effect.rank])
  | complain fault => exact absurd hrank (by simp [Effect.rank])
  | stopWriter => exact absurd hrank (by simp [Effect.rank])

theorem error_ne_ok : Message.error ≠ Message.ok := by
  simp [Message.ok, Message.error, Message.result, Message.okName, Message.errorName]

theorem reply_not_mem_service {m : Message} (ms : List Message) : .reply m ∉ service ms := by
  intro hmem
  have hrank := (pairwise_service ms).2 _ hmem
  exact absurd (Nat.le_trans hrank (rank_reply_le m)) (by decide)

/-- Behind the registration there is no reply but one, to the introduction. -/
theorem reply_after_enlist {deviceId : String} {m : Message}
    (h : done ++ .reply m :: later = conversation ms) (hmem : .enlist deviceId ∈ done) :
    m = .ok ∧ .reply .ok ∉ done := by
  induction ms generalizing done with
  | nil =>
    have hnot : .enlist deviceId ∈ conversation [] := h ▸ List.mem_append_left _ hmem
    exact absurd hnot (by simp [conversation])
  | cons first ms ih =>
    rw [conversation] at h
    cases hid : first.registerDeviceId? with
    | none =>
      rw [hid] at h
      dsimp only at h
      cases done with
      | nil => exact absurd hmem List.not_mem_nil
      | cons e done =>
        obtain ⟨rfl, hrest⟩ := List.cons.inj h
        have hlater : .enlist deviceId ∈ done := (List.mem_cons.1 hmem).resolve_left (by simp)
        obtain ⟨hm, hnot⟩ := ih hrest hlater
        refine ⟨hm, fun hok => ?_⟩
        rcases List.mem_cons.1 hok with heq | hok
        · exact absurd (Effect.reply.inj heq).symm error_ne_ok
        · exact hnot hok
    | some id =>
      rw [hid] at h
      dsimp only at h
      -- the reply is the third effect, since the service has none
      match done with
      | [] => exact absurd hmem List.not_mem_nil
      | [_] => exact absurd (List.cons.inj (List.cons.inj h).2).1 (by simp)
      | [a, b] =>
        have ha : a = .enlist id := (List.cons.inj h).1
        have hb : b = .announce := (List.cons.inj (List.cons.inj h).2).1
        have hm := (List.cons.inj (List.cons.inj (List.cons.inj h).2).2).1
        rw [ha, hb]
        exact ⟨Effect.reply.inj hm, by simp⟩
      | _ :: _ :: _ :: done =>
        have hservice := (List.cons.inj (List.cons.inj (List.cons.inj h).2).2).2
        have hreply : .reply m ∈ service ms :=
          hservice ▸ List.mem_append_right done List.mem_cons_self
        exact absurd hreply (reply_not_mem_service ms)

/-- An introduction is confirmed after its session is registered. -/
theorem enlist_mem_before_ok (h : done ++ .reply .ok :: later = conversation ms) :
    ∃ deviceId, .enlist deviceId ∈ done := by
  induction ms generalizing done with
  | nil =>
    have hnot : .reply .ok ∈ conversation [] := h ▸ List.mem_append_right done List.mem_cons_self
    exact absurd hnot (by simp [conversation])
  | cons first ms ih =>
    rw [conversation] at h
    cases hid : first.registerDeviceId? with
    | none =>
      rw [hid] at h
      dsimp only at h
      cases done with
      | nil => exact absurd (Effect.reply.inj (List.cons.inj h).1).symm error_ne_ok
      | cons e done =>
        obtain ⟨deviceId, hmem⟩ := ih (List.cons.inj h).2
        exact ⟨deviceId, List.mem_cons_of_mem e hmem⟩
    | some id =>
      rw [hid] at h
      dsimp only at h
      cases done with
      | nil => exact absurd (List.cons.inj h).1 (by simp)
      | cons e done =>
        have he : e = .enlist id := (List.cons.inj h).1
        exact ⟨id, he ▸ List.mem_cons_self⟩

theorem reply_mem_conversation {m : Message} (h : .reply m ∈ conversation ms) :
    m = .error ∨ m = .ok := by
  induction ms with
  | nil => exact absurd h (by simp [conversation])
  | cons first ms ih =>
    rw [conversation] at h
    cases hid : first.registerDeviceId? with
    | none =>
      rw [hid] at h
      rcases List.mem_cons.1 h with heq | hlater
      · exact Or.inl (Effect.reply.inj heq)
      · exact ih hlater
    | some id =>
      rw [hid] at h
      have hlater : .reply m ∈ .reply .ok :: service ms := by simpa using h
      rcases List.mem_cons.1 hlater with heq | hservice
      · exact Or.inr (Effect.reply.inj heq)
      · exact absurd hservice (reply_not_mem_service ms)

theorem hangUp_not_mem_before_deliver {m : Message}
    (h : done ++ .deliver m :: later = conversation ms) : .hangUp ∉ done :=
  fun hmem => absurd (precedes_of_mem_done h _ hmem).1 (by simp [Effect.rank])

theorem stopWriter_not_mem_before_reply {m : Message}
    (h : done ++ .reply m :: later = conversation ms) : .stopWriter ∉ done := by
  intro hmem
  have hrank := (precedes_of_mem_done h _ hmem).1
  exact absurd (Nat.le_trans hrank (rank_reply_le m)) (by decide)

theorem unlist_mem_service (ms : List Message) : .unlist ∈ service ms := by
  rw [service_eq]
  exact List.mem_append_right _ List.mem_cons_self

theorem unlist_mem_of_retire_mem (h : .retire ∈ conversation ms) : .unlist ∈ conversation ms := by
  induction ms with
  | nil => exact absurd h (by simp [conversation])
  | cons m ms ih =>
    rw [conversation] at h ⊢
    cases hid : m.registerDeviceId? with
    | none =>
      rw [hid] at h
      exact List.mem_cons_of_mem _ (ih (by simpa using h))
    | some deviceId =>
      exact List.mem_cons_of_mem _ (List.mem_cons_of_mem _
        (List.mem_cons_of_mem _ (unlist_mem_service ms)))

/-- A session is taken out of the directory before it is marked closed. -/
theorem unlist_mem_before_retire (h : done ++ .retire :: later = conversation ms) :
    .unlist ∈ done := by
  have hmem : .unlist ∈ done ++ .retire :: later := by
    rw [h]
    exact unlist_mem_of_retire_mem (h ▸ List.mem_append_right _ List.mem_cons_self)
  rcases List.mem_append.1 hmem with hdone | hlater
  · exact hdone
  · rcases List.mem_cons.1 hlater with heq | hlater
    · exact absurd heq (by simp)
    · exact absurd (precedes_of_mem_later h _ hlater).1 (by decide)

end Order

/-! ## Dialogues -/

namespace Dialogue

/-- The dialogues that can come about. There is a session, and messages can be passed to it, exactly
between the introduction and the teardown. -/
inductive Stands : Dialogue → Prop where
  | anonymous (steps : Nat) : Stands ⟨⟨.unregistered, steps⟩, none, false⟩
  | serving (steps : Nat) (deviceId : String) : Stands ⟨⟨.registered, steps⟩, some deviceId, true⟩
  | leaving (steps : Nat) (deviceId : String) : Stands ⟨⟨.closing, steps⟩, some deviceId, true⟩
  | finished (steps : Nat) : Stands ⟨⟨.closed, steps⟩, none, false⟩

theorem stands_start : Stands start := .anonymous 0

variable {d : Dialogue} {steps : Nat} {deviceId : String}

theorem handle_anonymous (m : Message) :
    handle ⟨⟨.unregistered, steps⟩, none, false⟩ m =
      match m.registerDeviceId? with
      | none => (⟨⟨.unregistered, steps⟩, none, false⟩, [.reply .error])
      | some deviceId =>
        (⟨⟨.registered, steps + 1⟩, some deviceId, true⟩,
          [.enlist deviceId, .announce, .reply .ok]) := by
  unfold handle introduce
  dsimp only
  cases m.registerDeviceId? <;> rfl

theorem handle_serving (m : Message) :
    handle ⟨⟨.registered, steps⟩, some deviceId, true⟩ m =
      if m.isKillSignal then (⟨⟨.closing, steps + 1⟩, some deviceId, true⟩, [])
      else (⟨⟨.registered, steps⟩, some deviceId, true⟩, [.deliver m]) := rfl

theorem handle_deaf (h : d.isListening = false) (m : Message) : d.handle m = (d, []) := by
  obtain ⟨⟨phase, steps⟩, session, sends⟩ := d
  cases phase with
  | unregistered => exact absurd h (by simp [isListening])
  | registered => exact absurd h (by simp [isListening])
  | closing => rfl
  | closed => rfl

/-- One message leads from a dialogue that can come about to another, and no step between phases is
refused. -/
theorem Stands.handle (h : Stands d) (m : Message) :
    Stands (d.handle m).1 ∧ ∀ fault, .complain fault ∉ (d.handle m).2 := by
  cases h with
  | anonymous steps =>
    rw [handle_anonymous]
    cases m.registerDeviceId? with
    | none => exact ⟨.anonymous steps, by simp⟩
    | some deviceId => exact ⟨.serving (steps + 1) deviceId, by simp⟩
  | serving steps deviceId =>
    rw [handle_serving]
    split
    · exact ⟨.leaving (steps + 1) deviceId, by simp⟩
    · exact ⟨.serving steps deviceId, by simp⟩
  | leaving steps deviceId => exact ⟨.leaving steps deviceId, by simp [Dialogue.handle]⟩
  | finished steps => exact ⟨.finished steps, by simp [Dialogue.handle]⟩

def handleAll (d : Dialogue) : List Message → Dialogue × List Effect
  | [] => (d, [])
  | m :: ms =>
    let (d, effects) := d.handle m
    let (d, more) := d.handleAll ms
    (d, effects ++ more)

theorem handleAll_append (d : Dialogue) (ms ns : List Message) :
    d.handleAll (ms ++ ns) =
      (((d.handleAll ms).1.handleAll ns).1,
        (d.handleAll ms).2 ++ ((d.handleAll ms).1.handleAll ns).2) := by
  induction ms generalizing d with
  | nil => rfl
  | cons m ms ih =>
    rw [List.cons_append, handleAll, handleAll]
    dsimp only
    rw [ih, List.append_assoc]

theorem handleAll_deaf (h : d.isListening = false) (ms : List Message) :
    d.handleAll ms = (d, []) := by
  induction ms with
  | nil => rfl
  | cons m ms ih =>
    rw [handleAll, handle_deaf h]
    dsimp only
    rw [ih]
    rfl

/-- No message closes a dialogue; only its end does. -/
theorem Stands.phase_ne_closed (h : Stands d) (hopen : d.lifecycle.phase ≠ .closed)
    (ms : List Message) : (d.handleAll ms).1.lifecycle.phase ≠ .closed := by
  induction ms generalizing d with
  | nil => exact hopen
  | cons m ms ih =>
    have hstep : (d.handle m).1.lifecycle.phase ≠ .closed := by
      cases h with
      | anonymous steps =>
        rw [handle_anonymous]
        cases m.registerDeviceId? <;> simp
      | serving steps deviceId =>
        rw [handle_serving]
        split <;> simp
      | leaving steps deviceId => exact hopen
      | finished steps => exact absurd rfl hopen
    exact ih (h.handle m).1 hstep

/-- Handles messages up to the end of the stream. -/
def hold (d : Dialogue) (ms : List Message) : Dialogue × List Effect :=
  let (d, effects) := d.handleAll ms
  let (d, last) := d.finish
  (d, effects ++ last)

theorem hold_cons (d : Dialogue) (m : Message) (ms : List Message) :
    d.hold (m :: ms) =
      (((d.handle m).1.hold ms).1, (d.handle m).2 ++ ((d.handle m).1.hold ms).2) := by
  unfold hold
  rw [handleAll]
  dsimp only
  rw [List.append_assoc]

theorem hold_leaving (ms : List Message) :
    hold ⟨⟨.closing, steps⟩, some deviceId, true⟩ ms
      = (⟨⟨.closed, steps + 1⟩, none, false⟩, farewell) := by
  unfold hold
  rw [handleAll_deaf rfl]
  rfl

theorem hold_serving (ms : List Message) :
    ∃ n, hold ⟨⟨.registered, steps⟩, some deviceId, true⟩ ms
      = (⟨⟨.closed, n⟩, none, false⟩, service ms) := by
  induction ms with
  | nil => exact ⟨steps + 2, rfl⟩
  | cons m ms ih =>
    rw [hold_cons, handle_serving, service]
    split
    · rw [hold_leaving]
      exact ⟨steps + 2, rfl⟩
    · obtain ⟨n, hn⟩ := ih
      dsimp only
      rw [hn]
      exact ⟨n, rfl⟩

theorem hold_anonymous (ms : List Message) :
    ∃ n, hold ⟨⟨.unregistered, steps⟩, none, false⟩ ms
      = (⟨⟨.closed, n⟩, none, false⟩, conversation ms) := by
  induction ms with
  | nil => exact ⟨steps + 1, rfl⟩
  | cons m ms ih =>
    rw [hold_cons, handle_anonymous, conversation]
    cases m.registerDeviceId? with
    | none =>
      obtain ⟨n, hn⟩ := ih
      dsimp only
      rw [hn]
      exact ⟨n, rfl⟩
    | some deviceId =>
      have hserving : ∃ n, hold ⟨⟨.registered, steps + 1⟩, some deviceId, true⟩ ms
          = (⟨⟨.closed, n⟩, none, false⟩, service ms) := hold_serving ms
      obtain ⟨n, hn⟩ := hserving
      dsimp only
      rw [hn]
      exact ⟨n, rfl⟩

/-- **The messages of a device lead to their conversation**, and in the end the dialogue is closed
and holds nothing. -/
theorem hold_start (ms : List Message) :
    ∃ n, start.hold ms = (⟨⟨.closed, n⟩, none, false⟩, conversation ms) := hold_anonymous ms

end Dialogue

/-! ## Bytes -/

/-- The messages that the lines of a stream are decoded to; what is no message is left out. -/
def messages (lines : List (List UInt8)) : List Message :=
  (lines.filterMap verdict?).filterMap Except.toOption

namespace Connection

variable {c : Connection}

theorem drain_of_deaf (h : c.dialogue.isListening = false) : c.drain = (c, []) := by
  rw [drain, h, if_neg Bool.false_ne_true]

theorem drain_of_none {rest : FrameBuffer} (h : c.dialogue.isListening = true)
    (hnext : c.buffer.nextMessage = (.ok none, rest)) :
    c.drain = ({ c with buffer := rest }, []) := by
  rw [drain, if_pos h]
  split <;> simp_all

theorem drain_of_message {rest : FrameBuffer} {m : Message} (h : c.dialogue.isListening = true)
    (hnext : c.buffer.nextMessage = (.ok (some m), rest)) :
    c.drain =
      ((drain ⟨rest, (c.dialogue.handle m).1⟩).1,
        (c.dialogue.handle m).2 ++ (drain ⟨rest, (c.dialogue.handle m).1⟩).2) := by
  rw [drain, if_pos h]
  split <;> simp_all

theorem drain_of_fault {rest : FrameBuffer} {fault : FrameFault}
    (h : c.dialogue.isListening = true) (hnext : c.buffer.nextMessage = (.error fault, rest)) :
    c.drain = drain ⟨rest, c.dialogue⟩ := by
  rw [drain, if_pos h]
  split <;> simp_all

/-- What is left in the buffer once all its lines are taken. -/
def leftover (b : FrameBuffer) : List UInt8 :=
  if b.rest.length ≤ maxFrameSize then b.rest else []

/-- A connection handles the messages of the lines in its buffer, and keeps the rest while it
listens. -/
theorem drain_eq (c : Connection) :
    (c.drain.1.dialogue, c.drain.2)
        = c.dialogue.handleAll (c.buffer.verdicts.filterMap Except.toOption) ∧
      (c.drain.1.dialogue.isListening = true → c.drain.1.buffer.waiting = leftover c.buffer) := by
  -- by the lines that are still to come, since each message can change the dialogue
  generalize hverdicts : c.buffer.verdicts = vs
  induction vs generalizing c with
  | nil =>
    by_cases hlistens : c.dialogue.isListening = true
    · by_cases hsize : c.buffer.rest.length ≤ maxFrameSize
      · rw [drain_of_none hlistens (FrameBuffer.nextMessage_of_none hverdicts hsize), leftover,
          if_pos hsize]
        exact ⟨rfl, fun _ => FrameBuffer.waiting_ofList _⟩
      · -- the overflow is reported and passed over, and then nothing is left
        have hempty : drain ⟨.empty, c.dialogue⟩ = (⟨.empty, c.dialogue⟩, []) :=
          drain_of_none hlistens (FrameBuffer.nextMessage_of_none rfl (Nat.zero_le _))
        rw [drain_of_fault hlistens
            (FrameBuffer.nextMessage_of_overflow hverdicts (Nat.lt_of_not_le hsize)),
          hempty, leftover, if_neg hsize]
        exact ⟨rfl, fun _ => rfl⟩
    · rw [drain_of_deaf (Bool.eq_false_iff.2 hlistens)]
      exact ⟨rfl, fun h => absurd h hlistens⟩
  | cons v vs ih =>
    by_cases hlistens : c.dialogue.isListening = true
    · obtain ⟨b, hnext, hlater, hrest⟩ := FrameBuffer.nextMessage_of_verdicts hverdicts
      have hleft : leftover b = leftover c.buffer := by rw [leftover, leftover, hrest]
      cases v with
      | error fault =>
        rw [drain_of_fault hlistens hnext, ← hleft]
        exact ih ⟨b, c.dialogue⟩ hlater
      | ok m =>
        obtain ⟨hdialogue, hbuffer⟩ := ih ⟨b, (c.dialogue.handle m).1⟩ hlater
        rw [drain_of_message hlistens hnext, ← hleft]
        refine ⟨?_, hbuffer⟩
        show _ = c.dialogue.handleAll (m :: vs.filterMap Except.toOption)
        rw [Dialogue.handleAll]
        dsimp only at hdialogue ⊢
        rw [← hdialogue]
    · have hdeaf := Bool.eq_false_iff.2 hlistens
      rw [drain_of_deaf hdeaf, Dialogue.handleAll_deaf hdeaf]
      exact ⟨rfl, fun h => absurd h hlistens⟩

theorem receive_eq (h : c.dialogue.isListening = true) (p : ByteArray) :
    ((c.receive p).1.dialogue, (c.receive p).2)
        = c.dialogue.handleAll (messages (cut (c.buffer.feed p).waiting).1) ∧
      ((c.receive p).1.dialogue.isListening = true →
        (c.receive p).1.buffer.waiting = leftover (c.buffer.feed p)) := by
  rw [receive, if_pos h]
  exact drain_eq ⟨c.buffer.feed p, c.dialogue⟩

theorem receive_deaf (h : c.dialogue.isListening = false) (p : ByteArray) :
    c.receive p = (c, []) := by
  rw [receive, h, if_neg Bool.false_ne_true]

/-- Whatever pieces come, a connection handles some messages. -/
theorem receiveAll_handles (c : Connection) (pieces : List ByteArray) :
    ∃ ms, ((c.receiveAll pieces).1.dialogue, (c.receiveAll pieces).2)
      = c.dialogue.handleAll ms := by
  induction pieces generalizing c with
  | nil => exact ⟨[], rfl⟩
  | cons p ps ih =>
    have hfirst : ∃ ms, ((c.receive p).1.dialogue, (c.receive p).2) = c.dialogue.handleAll ms := by
      by_cases hlistens : c.dialogue.isListening = true
      · exact ⟨_, (receive_eq hlistens p).1⟩
      · rw [receive_deaf (Bool.eq_false_iff.2 hlistens)]
        exact ⟨[], rfl⟩
    obtain ⟨ms, hms⟩ := hfirst
    obtain ⟨ns, hns⟩ := ih (c.receive p).1
    refine ⟨ms ++ ns, ?_⟩
    rw [Dialogue.handleAll_append, ← hms, receiveAll]
    dsimp only
    rw [← hns]

theorem receiveAll_deaf (h : c.dialogue.isListening = false) (pieces : List ByteArray) :
    c.receiveAll pieces = (c, []) := by
  induction pieces with
  | nil => rfl
  | cons p ps ih =>
    rw [receiveAll, receive_deaf h]
    dsimp only
    rw [ih]
    rfl

/-- Of a line that is too long no end is in sight, so the bytes that are dropped belong to none. -/
theorem cut_leftover {b : FrameBuffer} {bs : List UInt8}
    (hsize : ∀ l ∈ (cut (b.rest ++ bs)).1, l.length ≤ maxFrameSize) :
    Wire.delimiter ∉ leftover b ∧ (cut (leftover b ++ bs)).1 = (cut (b.rest ++ bs)).1 := by
  have hrest : Wire.delimiter ∉ b.rest := (Wire.delimiter_not_mem_cut _).2
  unfold leftover
  split
  · exact ⟨hrest, rfl⟩
  · next hlong =>
    refine ⟨List.not_mem_nil, ?_⟩
    -- were it ever ended, the line would be longer than is allowed
    rcases Wire.length_le_of_cut_append hrest bs with ⟨l, hl, hle⟩ | ⟨hlines, hall⟩
    · exact absurd (Nat.le_trans hle (hsize l hl)) hlong
    · have hbs : Wire.delimiter ∉ bs := by
        have hnot := (Wire.delimiter_not_mem_cut (b.rest ++ bs)).2
        rw [hall] at hnot
        exact fun hmem => hnot (List.mem_append_right _ hmem)
      rw [hlines, List.nil_append, Wire.cut_of_not_mem hbs]

theorem messages_append (ls ls' : List (List UInt8)) :
    messages (ls ++ ls') = messages ls ++ messages ls' := by
  rw [messages, List.filterMap_append, List.filterMap_append, messages, messages]

/-- Taking a stream is handling the messages of its complete lines. -/
theorem receiveAll_eq {c : Connection} {pieces : List ByteArray}
    (hc : Wire.delimiter ∉ c.buffer.waiting)
    (hsize : ∀ l ∈ (cut (c.buffer.waiting ++ FrameBuffer.stream pieces)).1,
      l.length ≤ maxFrameSize) :
    ((c.receiveAll pieces).1.dialogue, (c.receiveAll pieces).2)
      = c.dialogue.handleAll
          (messages (cut (c.buffer.waiting ++ FrameBuffer.stream pieces)).1) := by
  induction pieces generalizing c with
  | nil =>
    have hcut : cut (c.buffer.waiting ++ FrameBuffer.stream []) = ([], c.buffer.waiting) := by
      rw [FrameBuffer.stream, List.flatMap_nil, List.append_nil, Wire.cut_of_not_mem hc]
    rw [hcut]
    rfl
  | cons p ps ih =>
    by_cases hlistens : c.dialogue.isListening = true
    · have hstream : c.buffer.waiting ++ FrameBuffer.stream (p :: ps)
          = (c.buffer.feed p).waiting ++ FrameBuffer.stream ps := by
        rw [FrameBuffer.waiting_feed, List.append_assoc]
        rfl
      have hcut : (cut (c.buffer.waiting ++ FrameBuffer.stream (p :: ps))).1
          = (cut (c.buffer.feed p).waiting).1
            ++ (cut ((c.buffer.feed p).rest ++ FrameBuffer.stream ps)).1 := by
        rw [hstream, Wire.cut_append]
        rfl
      rw [hcut] at hsize ⊢
      have hlines : ∀ l ∈ (cut ((c.buffer.feed p).rest ++ FrameBuffer.stream ps)).1,
          l.length ≤ maxFrameSize := fun l hl => hsize l (List.mem_append_right _ hl)
      obtain ⟨hleft, hsame⟩ := cut_leftover hlines
      obtain ⟨hfirst, hbuffer⟩ := receive_eq hlistens p
      have hlater : (((c.receive p).1.receiveAll ps).1.dialogue, ((c.receive p).1.receiveAll ps).2)
          = (c.receive p).1.dialogue.handleAll
              (messages (cut ((c.buffer.feed p).rest ++ FrameBuffer.stream ps)).1) := by
        by_cases hstill : (c.receive p).1.dialogue.isListening = true
        · have hwaiting := hbuffer hstill
          have hrest := ih (c := (c.receive p).1) (hwaiting ▸ hleft)
            (by rw [hwaiting, hsame]; exact hlines)
          rw [hrest, hwaiting, hsame]
        · -- what the buffer holds now does not matter any more
          have hdeaf := Bool.eq_false_iff.2 hstill
          rw [receiveAll_deaf hdeaf, Dialogue.handleAll_deaf hdeaf]
      rw [messages_append, Dialogue.handleAll_append, ← hfirst, receiveAll]
      dsimp only
      rw [← hlater]
    · have hdeaf := Bool.eq_false_iff.2 hlistens
      rw [receiveAll_deaf hdeaf, Dialogue.handleAll_deaf hdeaf]

theorem serve_of_receiveAll {pieces : List ByteArray} {ms : List Message}
    (h : ((start.receiveAll pieces).1.dialogue, (start.receiveAll pieces).2)
      = Dialogue.start.handleAll ms) :
    ((serve pieces).1.dialogue, (serve pieces).2) = Dialogue.start.hold ms := by
  unfold serve Dialogue.hold
  rw [← h]
  rfl

/-- **A stream leads to the conversation of its messages**, whatever pieces it comes in; in the end
the connection is closed and holds nothing. -/
theorem serve_eq {pieces : List ByteArray}
    (hsize : ∀ l ∈ (cut (FrameBuffer.stream pieces)).1, l.length ≤ maxFrameSize) :
    (serve pieces).2 = conversation (messages (cut (FrameBuffer.stream pieces)).1) ∧
      ∃ n, (serve pieces).1.dialogue = ⟨⟨.closed, n⟩, none, false⟩ := by
  have hreceive := receiveAll_eq (c := start) List.not_mem_nil hsize
  obtain ⟨n, hn⟩ := Dialogue.hold_start (messages (cut (FrameBuffer.stream pieces)).1)
  have hserve := (serve_of_receiveAll hreceive).trans hn
  exact ⟨(Prod.mk.inj hserve).2, n, (Prod.mk.inj hserve).1⟩

/-- Whatever the lines of a stream are, it leads to some conversation. -/
theorem serve_conversation (pieces : List ByteArray) :
    ∃ ms n, (serve pieces).2 = conversation ms ∧
      (serve pieces).1.dialogue = ⟨⟨.closed, n⟩, none, false⟩ := by
  obtain ⟨ms, hms⟩ := receiveAll_handles start pieces
  obtain ⟨n, hn⟩ := Dialogue.hold_start ms
  have hserve := (serve_of_receiveAll hms).trans hn
  exact ⟨ms, n, (Prod.mk.inj hserve).2, (Prod.mk.inj hserve).1⟩

theorem receiveAll_concat (c : Connection) (pieces : List ByteArray) (p : ByteArray) :
    c.receiveAll (pieces ++ [p]) =
      (((c.receiveAll pieces).1.receive p).1,
        (c.receiveAll pieces).2 ++ ((c.receiveAll pieces).1.receive p).2) := by
  induction pieces generalizing c with
  | nil =>
    show ((c.receive p).1, (c.receive p).2 ++ []) = ((c.receive p).1, [] ++ (c.receive p).2)
    rw [List.append_nil, List.nil_append]
  | cons b pieces ih =>
    rw [List.cons_append, receiveAll, receiveAll]
    dsimp only
    rw [ih, List.append_assoc]

end Connection

end KeywordRunner.Server
