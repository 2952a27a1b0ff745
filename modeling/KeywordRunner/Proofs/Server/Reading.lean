import KeywordRunner.Proofs.Server.Steps
import KeywordRunner.Proofs.Wire.Draining

/-!
# Proofs.Server.Reading — how much a connection holds while it reads

A connection that has read asks its buffer until there is no answer, or until it stops listening.
`Rounds` are the rounds of this loop, and each `Round` uses up bytes, a fault as well as a message.
So the loop ends, and where it ends for want of an answer the buffer holds the short beginning of a
line. With the bytes of one more read that is the most that a connection ever holds.

* **`rounds_drain`** — the loop ends, as `drain` says; **`Rounds.settled`** and **`Rounds.left`** —
  what it ends in.
* **`Rests.receive`** — a read leaves the bound between reads as it is; **`Meets.size_le`** — so no
  more than the bytes of a read come on top, at any time.
* **`reading_is_bounded`** — the theorem, from one question to every device at a server.
-/

namespace KeywordRunner.Server

open Wire (FrameBuffer FrameFault Message decodeFrame delimiter maxFrameSize)
open Wire.FrameBuffer (Asked)

namespace Dialogue

/-- Nothing but a kill signal makes a dialogue stop listening. -/
theorem isKillSignal_of_handle {d : Dialogue} {m : Message} (h : d.isListening = true)
    (hdeaf : (d.handle m).1.isListening = false) : m.isKillSignal = true := by
  obtain ⟨⟨phase, steps⟩, session, sends⟩ := d
  cases phase with
  | unregistered =>
    cases hid : m.registerDeviceId? with
    | none => simp [handle, introduce, hid, isListening] at hdeaf
    | some deviceId =>
      simp [handle, introduce, hid, isListening, Lifecycle.register, Lifecycle.advance] at hdeaf
  | registered =>
    by_cases hkill : m.isKillSignal = true
    · exact hkill
    · simp [handle, hkill, isListening] at hdeaf
  | closing => exact absurd h (by simp [isListening])
  | closed => exact absurd h (by simp [isListening])

end Dialogue

namespace Connection

/-! ## The rounds of a connection that has read -/

/-- One round of a connection that has read: it handles the message that its buffer has, or passes
over the fault. -/
inductive Round : Connection → Connection → Prop where
  | message {c : Connection} {rest : FrameBuffer} {m : Message}
      (hlistens : c.dialogue.isListening = true)
      (hnext : c.buffer.nextMessage = (.ok (some m), rest)) :
      Round c ⟨rest, (c.dialogue.handle m).1⟩
  | fault {c : Connection} {rest : FrameBuffer} {fault : FrameFault}
      (hlistens : c.dialogue.isListening = true)
      (hnext : c.buffer.nextMessage = (.error fault, rest)) : Round c ⟨rest, c.dialogue⟩

namespace Round

variable {c c₁ : Connection}

theorem answered (h : c.Round c₁) :
    ∃ answer, answer ≠ .ok none ∧ c.buffer.nextMessage = (answer, c₁.buffer) := by
  cases h with
  | @message _ m _ hnext => exact ⟨.ok (some m), by simp, hnext⟩
  | @fault _ fault _ hnext => exact ⟨.error fault, by simp, hnext⟩

/-- A round uses up bytes. -/
theorem size_lt (h : c.Round c₁) : c₁.buffer.size < c.buffer.size := by
  obtain ⟨answer, hanswer, hnext⟩ := h.answered
  have hlt := FrameBuffer.size_nextMessage_lt (b := c.buffer) (by rw [hnext]; exact hanswer)
  rw [hnext] at hlt
  exact hlt

/-- The first round uses up all that was waiting for it. -/
theorem size_le (h : c.Round c₁) {old new : List UInt8} (hb : c.buffer.waiting = old ++ new)
    (hold : delimiter ∉ old) : c₁.buffer.size ≤ new.length := by
  obtain ⟨answer, hanswer, hnext⟩ := h.answered
  exact (FrameBuffer.nextMessage_eq_iff.1 hnext).size_le hanswer hb hold

/-- A round after which nobody listens has taken a kill signal. -/
theorem leaves (h : c.Round c₁) (hdeaf : c₁.dialogue.isListening = false) :
    ∃ m, m.isKillSignal = true ∧ c.buffer.nextMessage = (.ok (some m), c₁.buffer) := by
  cases h with
  | @message _ m hlistens hnext => exact ⟨m, Dialogue.isKillSignal_of_handle hlistens hdeaf, hnext⟩
  | fault hlistens _ => exact absurd hdeaf (by simp [hlistens])

theorem drain_eq (h : c.Round c₁) : c.drain.1 = c₁.drain.1 := by
  cases h with
  | message hlistens hnext => rw [drain_of_message hlistens hnext]
  | fault hlistens hnext => rw [drain_of_fault hlistens hnext]

end Round

/-- The rounds of a connection that has read, as long as it listens and its buffer has an answer.
Listed is the connection after each round; the last one is what it is in the end. -/
inductive Rounds : Connection → List Connection → Connection → Prop where
  | leaves {c : Connection} (hdeaf : c.dialogue.isListening = false) : Rounds c [] c
  | waits {c : Connection} {rest : FrameBuffer} (hlistens : c.dialogue.isListening = true)
      (hnext : c.buffer.nextMessage = (.ok none, rest)) : Rounds c [] ⟨rest, c.dialogue⟩
  | goes {c c₁ c' : Connection} {cs : List Connection} (hround : c.Round c₁)
      (hlater : Rounds c₁ cs c') : Rounds c (c₁ :: cs) c'

/-- **The loop ends**, as `drain` says. -/
theorem rounds_drain (c : Connection) : ∃ cs, c.Rounds cs c.drain.1 := by
  -- each round leaves fewer bytes
  induction hsize : c.buffer.size using Nat.strongRecOn generalizing c with
  | ind n ih =>
    have hgoes : ∀ c₁, c.Round c₁ → ∃ cs, c.Rounds cs c.drain.1 := by
      intro c₁ hround
      obtain ⟨cs, hcs⟩ := ih c₁.buffer.size (hsize ▸ hround.size_lt) c₁ rfl
      exact ⟨c₁ :: cs, .goes hround (hround.drain_eq ▸ hcs)⟩
    by_cases hlistens : c.dialogue.isListening = true
    · rcases hnext : c.buffer.nextMessage with ⟨e | _ | m, rest⟩
      · exact hgoes _ (.fault hlistens hnext)
      · rw [drain_of_none hlistens hnext]
        exact ⟨_, .waits hlistens hnext⟩
      · exact hgoes _ (.message hlistens hnext)
    · have hdeaf := Bool.eq_false_iff.2 hlistens
      rw [drain_of_deaf hdeaf]
      exact ⟨_, .leaves hdeaf⟩

namespace Rounds

variable {c c' : Connection} {cs : List Connection}

/-- There is no other run of the loop. -/
theorem eq_drain (h : c.Rounds cs c') : c' = c.drain.1 := by
  induction h with
  | leaves hdeaf => rw [drain_of_deaf hdeaf]
  | waits hlistens hnext => rw [drain_of_none hlistens hnext]
  | goes hround _ ih => rw [hround.drain_eq, ih]

/-- Every round uses up bytes, so there are no more rounds than bytes. -/
theorem shrinks (h : c.Rounds cs c') :
    cs.length ≤ c.buffer.size ∧
      (c :: cs).Pairwise fun before after => after.buffer.size < before.buffer.size := by
  induction h with
  | leaves _ => exact ⟨Nat.zero_le _, List.pairwise_singleton _ _⟩
  | waits _ _ => exact ⟨Nat.zero_le _, List.pairwise_singleton _ _⟩
  | @goes c c₁ c' cs hround _ ih =>
    obtain ⟨hlength, hsizes⟩ := ih
    have hlater : ∀ c₂ ∈ cs, c₂.buffer.size < c.buffer.size := fun c₂ hc₂ =>
      Nat.lt_trans (List.rel_of_pairwise_cons hsizes hc₂) hround.size_lt
    exact ⟨Nat.succ_le_of_lt (Nat.lt_of_le_of_lt hlength hround.size_lt),
      List.pairwise_cons.2 ⟨List.forall_mem_cons.2 ⟨hround.size_lt, hlater⟩, hsizes⟩⟩

/-- Once there was an answer, only new bytes are left. -/
theorem size_le (h : c.Rounds cs c') {old new : List UInt8} (hb : c.buffer.waiting = old ++ new)
    (hold : delimiter ∉ old) : ∀ c₁ ∈ cs, c₁.buffer.size ≤ new.length := by
  cases h with
  | leaves _ => exact fun c₁ hc₁ => absurd hc₁ List.not_mem_nil
  | waits _ _ => exact fun c₁ hc₁ => absurd hc₁ List.not_mem_nil
  | goes hround hlater =>
    have hfirst := hround.size_le hb hold
    have hsizes := hlater.shrinks.2
    exact List.forall_mem_cons.2 ⟨hfirst, fun c₂ hc₂ =>
      Nat.le_trans (Nat.le_of_lt (List.rel_of_pairwise_cons hsizes hc₂)) hfirst⟩

/-- A connection that still listens in the end has asked until there was no answer. -/
theorem settled (h : c.Rounds cs c') (hlistens : c'.dialogue.isListening = true) :
    delimiter ∉ c'.buffer.waiting ∧ c'.buffer.size ≤ maxFrameSize := by
  induction h with
  | leaves hdeaf => exact absurd hlistens (by simp [hdeaf])
  | waits _ hnext => exact FrameBuffer.settled_of_none hnext
  | goes _ _ ih => exact ih hlistens

/-- One that does not has taken a kill signal in its last round, and asks for nothing behind it. -/
theorem left (h : c.Rounds cs c') (hlistens : c.dialogue.isListening = true)
    (hdeaf : c'.dialogue.isListening = false) :
    c' ∈ cs ∧ ∃ c₀ ∈ c :: cs, ∃ m, m.isKillSignal = true ∧
      c₀.buffer.nextMessage = (.ok (some m), c'.buffer) := by
  induction h with
  | leaves hdeaf' => exact absurd hlistens (by simp [hdeaf'])
  | waits hlistens' _ => exact absurd hdeaf (by simp [hlistens'])
  | @goes c c₁ c' cs hround hlater ih =>
    by_cases hstill : c₁.dialogue.isListening = true
    · obtain ⟨hmem, c₀, hc₀, hkill⟩ := ih hstill hdeaf
      exact ⟨List.mem_cons_of_mem _ hmem, c₀, List.mem_cons_of_mem _ hc₀, hkill⟩
    · have hdeaf₁ := Bool.eq_false_iff.2 hstill
      obtain ⟨m, hm⟩ := hround.leaves hdeaf₁
      -- nobody listens any more, so this was the last round
      have hlast : c' = c₁ := by rw [hlater.eq_drain, drain_of_deaf hdeaf₁]
      rw [hlast]
      exact ⟨List.mem_cons_self, c, List.mem_cons_self, m, hm⟩

end Rounds

/-! ## Read after read -/

/-- How a connection stands between two reads: its buffer is not too large, and as long as it
listens there is no complete line in it. -/
structure Rests (c : Connection) : Prop where
  size_le : c.buffer.size ≤ maxFrameSize
  unended : c.dialogue.isListening = true → delimiter ∉ c.buffer.waiting

theorem rests_start : Rests start := ⟨Nat.zero_le _, fun _ => List.not_mem_nil⟩

/-- The connection when it has read and has not asked yet. -/
def fed (c : Connection) (bytes : ByteArray) : Connection := ⟨c.buffer.feed bytes, c.dialogue⟩

/-- All that a connection is while it takes reads one after the other: between two reads, with the
bytes of a read, and after each round that these lead to. -/
inductive Meets : Connection → List ByteArray → Connection → Prop where
  | between (c : Connection) (reads : List ByteArray) : Meets c reads c
  | fed {c : Connection} (hlistens : c.dialogue.isListening = true) (bytes : ByteArray)
      (reads : List ByteArray) : Meets c (bytes :: reads) (c.fed bytes)
  | round {c c₁ c' : Connection} {cs : List Connection} {bytes : ByteArray}
      (hlistens : c.dialogue.isListening = true) (hrounds : (c.fed bytes).Rounds cs c')
      (hmem : c₁ ∈ cs) (reads : List ByteArray) : Meets c (bytes :: reads) c₁
  | later {c c₁ : Connection} {bytes : ByteArray} {reads : List ByteArray}
      (hmeets : Meets (c.receive bytes).1 reads c₁) : Meets c (bytes :: reads) c₁

section Reads

variable {c c₁ : Connection} {bytes : ByteArray} {reads : List ByteArray}

theorem receive_of_listening (h : c.dialogue.isListening = true) (bytes : ByteArray) :
    c.receive bytes = (c.fed bytes).drain := by
  rw [receive, if_pos h]
  rfl

theorem size_fed (c : Connection) (bytes : ByteArray) :
    (c.fed bytes).buffer.size = c.buffer.size + bytes.size := by
  rw [FrameBuffer.size_eq_length, fed, FrameBuffer.waiting_feed, List.length_append]
  rfl

/-- Once a read has led to an answer, only bytes of this read are left. -/
theorem Rests.size_round (h : c.Rests) (hlistens : c.dialogue.isListening = true)
    {c' : Connection} {cs : List Connection} (hrounds : (c.fed bytes).Rounds cs c') :
    ∀ c₁ ∈ cs, c₁.buffer.size ≤ bytes.size :=
  hrounds.size_le (FrameBuffer.waiting_feed c.buffer bytes) (h.unended hlistens)

/-- **A read leaves the bound as it is.** -/
theorem Rests.receive (h : c.Rests) (hbytes : bytes.size ≤ readChunk) :
    (c.receive bytes).1.Rests := by
  by_cases hlistens : c.dialogue.isListening = true
  · rw [receive_of_listening hlistens]
    obtain ⟨cs, hrounds⟩ := rounds_drain (c.fed bytes)
    by_cases hstill : (c.fed bytes).drain.1.dialogue.isListening = true
    · obtain ⟨hnot, hsize⟩ := hrounds.settled hstill
      exact ⟨hsize, fun _ => hnot⟩
    · obtain ⟨hmem, _⟩ := hrounds.left hlistens (Bool.eq_false_iff.2 hstill)
      have hsize := Nat.le_trans (h.size_round hlistens hrounds _ hmem) hbytes
      have hchunk : readChunk ≤ maxFrameSize := by decide
      exact ⟨Nat.le_trans hsize hchunk, fun hlistens' => absurd hlistens' hstill⟩
  · rw [receive_deaf (Bool.eq_false_iff.2 hlistens)]
    exact h

theorem Rests.receiveAll (h : c.Rests) (hreads : ∀ bytes ∈ reads, bytes.size ≤ readChunk) :
    (c.receiveAll reads).1.Rests := by
  induction reads generalizing c with
  | nil => exact h
  | cons bytes reads ih =>
    obtain ⟨hbytes, hlater⟩ := List.forall_mem_cons.1 hreads
    exact ih (h.receive hbytes) hlater

/-- What a connection holds at any time is no more than what it may hold between two reads, and the
bytes of one. -/
theorem Meets.size_le (h : c.Meets reads c₁) (hrests : c.Rests)
    (hreads : ∀ bytes ∈ reads, bytes.size ≤ readChunk) :
    c₁.buffer.size ≤ maxFrameSize + readChunk := by
  induction h with
  | between c reads => exact Nat.le_trans hrests.size_le (Nat.le_add_right _ _)
  | fed _ bytes reads =>
    rw [size_fed]
    exact Nat.add_le_add hrests.size_le (List.forall_mem_cons.1 hreads).1
  | round hlistens hrounds hmem reads =>
    have hsize := hrests.size_round hlistens hrounds _ hmem
    exact Nat.le_trans (Nat.le_trans hsize (List.forall_mem_cons.1 hreads).1)
      (Nat.le_add_left _ _)
  | later _ ih =>
    obtain ⟨hbytes, hlater⟩ := List.forall_mem_cons.1 hreads
    exact ih (hrests.receive hbytes) hlater

end Reads

end Connection

namespace Traffic

variable {callTimeout : Duration} {acts : List Act} {deeds : List (Nat × Effect)} {t : Traffic}
  {i : Nat} {p : Peer}

/-- Whatever goes on around it, a connection at a server is bounded by what its own device sends. -/
theorem History.size_le (h : History callTimeout acts deeds t) (hget : t.peers[i]? = some p)
    (hreads : ∀ bytes ∈ receivedBy i acts, bytes.size ≤ readChunk) :
    p.connection.buffer.size ≤ maxFrameSize := by
  have hconnection : p.connection = (decided i acts).1 :=
    congrArg Prod.fst (h.scripts.present i p hget)
  have hrests := Connection.rests_start.receiveAll hreads
  rw [hconnection]
  unfold decided
  split
  · exact hrests.size_le
  · exact hrests.size_le

end Traffic

/-- **Reading ends and is bounded.** A buffer that is asked for a line or a message has none and
drops nothing but blank lines, or it answers and holds fewer bytes. So asking on ends, with the
short beginning of a line. What a connection does when it has read ends as well, in the same way,
unless a kill signal has come: nothing behind that is read. If a device is read in chunks, its
connection never holds more than the largest frame and one chunk, and between two reads no more than
the largest frame. -/
theorem reading_is_bounded {reads : List ByteArray}
    (hreads : ∀ bytes ∈ reads, bytes.size ≤ readChunk) :
    (∀ b : FrameBuffer, Asked .ok b b.nextLine.1 b.nextLine.2 ∧
      (b.nextLine.1 ≠ .ok none → b.nextLine.2.size < b.size)) ∧
    (∀ b : FrameBuffer, Asked decodeFrame b b.nextMessage.1 b.nextMessage.2 ∧
      (b.nextMessage.1 ≠ .ok none → b.nextMessage.2.size < b.size)) ∧
    (∀ b : FrameBuffer, b.takeAll.1.length ≤ b.size ∧ delimiter ∉ b.takeAll.2.waiting ∧
      b.takeAll.2.size ≤ maxFrameSize) ∧
    (∀ c : Connection, ∃ cs, c.Rounds cs c.drain.1 ∧ cs.length ≤ c.buffer.size ∧
      ((c :: cs).Pairwise fun before after => after.buffer.size < before.buffer.size) ∧
      (c.drain.1.dialogue.isListening = true →
        delimiter ∉ c.drain.1.buffer.waiting ∧ c.drain.1.buffer.size ≤ maxFrameSize) ∧
      (c.dialogue.isListening = true → c.drain.1.dialogue.isListening = false →
        ∃ c₀ ∈ c :: cs, ∃ m, m.isKillSignal = true ∧
          c₀.buffer.nextMessage = (.ok (some m), c.drain.1.buffer))) ∧
    (∀ c, Connection.start.Meets reads c → c.buffer.size ≤ maxFrameSize + readChunk) ∧
    (Connection.start.receiveAll reads).1.buffer.size ≤ maxFrameSize ∧
    (∀ (callTimeout : Duration) (acts : List Traffic.Act) (t : Traffic) (i : Nat) (p : Peer),
      (Traffic.idle callTimeout).run acts = some t → Traffic.receivedBy i acts = reads →
      t.peers[i]? = some p → p.connection.buffer.size ≤ maxFrameSize) := by
  refine ⟨fun b => ⟨FrameBuffer.nextLine_eq_iff.1 rfl, FrameBuffer.size_nextLine_lt⟩,
    fun b => ⟨FrameBuffer.nextMessage_eq_iff.1 rfl, FrameBuffer.size_nextMessage_lt⟩,
    FrameBuffer.takeAll_settles, fun c => ?_,
    fun c hmeets => hmeets.size_le Connection.rests_start hreads,
    (Connection.rests_start.receiveAll hreads).size_le, ?_⟩
  · obtain ⟨cs, hrounds⟩ := c.rounds_drain
    obtain ⟨hlength, hshrinks⟩ := hrounds.shrinks
    exact ⟨cs, hrounds, hlength, hshrinks, hrounds.settled,
      fun hlistens hdeaf => (hrounds.left hlistens hdeaf).2⟩
  · rintro callTimeout acts t i p hrun rfl hget
    exact (Traffic.history_of_run hrun).size_le hget hreads

/-- What a device sends at once that introduces itself, says goodbye, and goes on. -/
def partingBytes : ByteArray :=
  (Wire.joined ([Message.register "cam", .killSignal].map Wire.lineBytes) [120, 10]).toByteArray

theorem bytes_parting : partingBytes.data.toList
    = Wire.lineBytes (.register "cam")
        ++ delimiter :: (Wire.lineBytes .killSignal ++ [delimiter, 120, 10]) := by
  rw [partingBytes, List.toList_data_toByteArray, List.map_cons, List.map_singleton,
    Wire.joined_cons, Wire.joined_cons]
  rfl

theorem size_partingBytes : partingBytes.size ≤ readChunk := by
  have hlength : (Wire.lineBytes (.register "cam")
      ++ delimiter :: (Wire.lineBytes .killSignal ++ [delimiter, 120, 10])).length ≤ readChunk := by
    decide +kernel
  rw [← bytes_parting] at hlength
  exact hlength

/-- The connection once it has read this: the line behind the kill signal is still there. -/
def parted : Connection := ⟨.ofList [120, 10], ⟨⟨.closing, 2⟩, some "cam", true⟩⟩

theorem rounds_parting : ∃ cs, (Connection.start.fed partingBytes).Rounds cs parted := by
  have hfirst : (Connection.start.fed partingBytes).buffer.nextMessage
      = (.ok (some (.register "cam")),
          .ofList (Wire.lineBytes .killSignal ++ [delimiter, 120, 10])) := by
    apply FrameBuffer.nextMessage_of_frame
    · simp [Message.register, Json.Fits, Json.depth, Json.Canonical]
    · simp [Message.register, Json.reals]
    · rw [Connection.fed, FrameBuffer.waiting_feed, bytes_parting]
      rfl
  have hsecond : (FrameBuffer.ofList
      (Wire.lineBytes .killSignal ++ [delimiter, 120, 10])).nextMessage
        = (.ok (some .killSignal), .ofList [120, 10]) := by
    apply FrameBuffer.nextMessage_of_frame
    · simp [Message.killSignal]
    · simp [Message.killSignal]
    · exact FrameBuffer.waiting_ofList _
  have hregistered : (Connection.start.fed partingBytes).Round
      ⟨.ofList (Wire.lineBytes .killSignal ++ [delimiter, 120, 10]),
        (Dialogue.start.handle (.register "cam")).1⟩ := .message rfl hfirst
  have hkilled : Connection.Round
      ⟨.ofList (Wire.lineBytes .killSignal ++ [delimiter, 120, 10]),
        (Dialogue.start.handle (.register "cam")).1⟩
      ⟨.ofList [120, 10], ((Dialogue.start.handle (.register "cam")).1.handle .killSignal).1⟩ :=
    .message rfl hsecond
  exact ⟨_, .goes hregistered (.goes hkilled (.leaves rfl))⟩

/-- That device is not listened to any more: its last line stays where it is. -/
theorem reading_is_bounded_parting :
    partingBytes.size ≤ readChunk ∧
      (Connection.start.receive partingBytes).1.dialogue.isListening = false ∧
      (Connection.start.receive partingBytes).1.buffer.waiting = [120, 10] ∧
      (Connection.start.fed partingBytes).buffer.size ≤ maxFrameSize + readChunk := by
  obtain ⟨cs, hrounds⟩ := rounds_parting
  rw [Connection.receive_of_listening rfl, ← hrounds.eq_drain]
  obtain ⟨-, -, -, -, hmeets, -⟩ :=
    reading_is_bounded (List.forall_mem_singleton.2 size_partingBytes)
  exact ⟨size_partingBytes, rfl, FrameBuffer.waiting_ofList _,
    hmeets _ (.fed rfl partingBytes [])⟩

end KeywordRunner.Server
