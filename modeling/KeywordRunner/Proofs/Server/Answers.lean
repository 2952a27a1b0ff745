import KeywordRunner.Proofs.Server.Service
import KeywordRunner.Proofs.Session.Sources

/-!
# Proofs.Server.Answers — which messages of a device answer the calls of the host

A connection passes everything to the session that its device sends behind its introduction, up to
the first kill signal, and the callers of the session take from there.

* **`answers_come_from_device`** — so a call is answered by one of these messages. It is a result if
  the device sends nothing but results there, and never a kill signal; nothing else depends on its
  type.
* **`introduction_answers_call`** — a device that introduces itself a second time answers a call by
  that.
-/

namespace KeywordRunner.Server

open Wire (FrameBuffer Message MessageType cut delimiter joined lineBytes maxFrameSize)

theorem type_of_mem_untilKill {ms : List Message} {m : Message} (h : m ∈ untilKill ms) :
    m.type ≠ .killSignal := by
  have hnot := List.mem_takeWhile_imp h
  intro htype
  rw [Message.isKillSignal, htype] at hnot
  exact absurd hnot (by decide)

/-- **A call is answered by what its device sends behind its introduction**, up to the first kill
signal. Whatever callers there are and whatever becomes of them: an outcome that is no failure of
the caller's own is made of one of these messages, which names no earlier call. It is not a kill
signal, and it is a result where the device sends nothing but results. Beyond that the type is
nobody's concern: had the messages any other types, the run would be the same with these types. -/
theorem answers_come_from_device {pieces : List ByteArray} {before after : List Message}
    {deviceId : String} {s : Session} {acts : List Callers.Act} {c : Callers}
    (hsize : ∀ l ∈ (cut (FrameBuffer.stream pieces)).1, l.length ≤ maxFrameSize)
    (hsome : Introduces (messages (cut (FrameBuffer.stream pieces)).1) before deviceId after)
    (hinbox : s.inbox = [])
    (hdevice : ∀ m ∈ Callers.delivered acts, m ∈ deliveriesOf (Connection.serve pieces).2)
    (hrun : (Callers.idle s).run acts = some c) :
    (∀ (i : Nat) (caller : Caller) (id : Option UInt64) (outcome : Except CallFault Message),
      c.callers[i]? = some caller → caller.stage = .finished id outcome →
        (∃ m ∈ untilKill after, m.type ≠ .killSignal ∧
          ((∀ n ∈ untilKill after, n.type = .result) → m.type = .result) ∧
          (∃ n, id = some n ∧ Session.answers n m = true) ∧
          outcome = Session.outcomeOf caller.request.name m) ∨
        ∃ fault, outcome = .error fault ∧ ∀ call args, fault ≠ .remoteFailure call args) ∧
    ∀ f : Message → MessageType,
      (Callers.idle s).run (acts.map (·.retype f)) = some (c.retype f) := by
  have hnone : ∀ m ∈ s.inbox, m ∈ untilKill after := by
    rw [hinbox]
    exact fun m hm => absurd hm List.not_mem_nil
  have hsent : ∀ m ∈ Callers.delivered acts, m ∈ untilKill after := by
    rw [← (served_of_serve hsize).deliveries hsome]
    exact hdevice
  have hsourced : c.Sourced (untilKill after) := (Callers.Sourced.idle hnone).run hrun hsent
  refine ⟨fun i caller id outcome hget hover => ?_, fun f => ?_⟩
  · rcases hsourced.outcomes i caller id outcome hget hover with
      ⟨m, hm, hanswer, houtcome⟩ | hfault
    · exact Or.inl ⟨m, hm, type_of_mem_untilKill hm, fun hresults => hresults m hm, hanswer,
        houtcome⟩
    · exact Or.inr hfault
  · have hidle : (Callers.idle s).retype f = Callers.idle s := by
      show Callers.mk (Session.retype f s) [] = Callers.mk s []
      rw [Session.retype, hinbox]
      rw [List.map_nil, ← hinbox]
    have hretyped := Callers.run_retype f (Callers.idle s) acts
    rw [hidle, hrun] at hretyped
    exact hretyped

/-- What a device says that introduces itself twice and then answers. -/
def twice : List Message := [.register "cam", .register "cam", .ok]

/-- The bytes of its frames. -/
def twiceBytes : ByteArray := (joined (twice.map lineBytes) []).toByteArray

theorem introduces_twice : Introduces twice [] "cam" [.register "cam", .ok] where
  before_refused := by decide
  accepted := ⟨.register "cam", by decide, rfl⟩

theorem sized_twice : ∀ l ∈ twice.map lineBytes, delimiter ∉ l ∧ l.length ≤ maxFrameSize :=
  sized_of_short (by decide +kernel)

theorem cut_twice : (cut (FrameBuffer.stream [twiceBytes])).1 = twice.map lineBytes := by
  rw [FrameBuffer.stream, List.flatMap_singleton, twiceBytes, List.toList_data_toByteArray,
    Wire.cut_joined_rest (fun l hl => (sized_twice l hl).1) List.not_mem_nil]

theorem messages_twice : messages (twice.map lineBytes) = twice := by
  apply messages_lineBytes
  · simp [twice, Message.register, Message.ok, Message.result, Json.Fits, Json.depth,
      Json.Canonical]
  · simp [twice, Message.register, Message.ok, Message.result, Json.reals]

theorem served_twice :
    Served twice (Connection.serve [twiceBytes]).1 (Connection.serve [twiceBytes]).2 := by
  have hsize : ∀ l ∈ (cut (FrameBuffer.stream [twiceBytes])).1, l.length ≤ maxFrameSize := by
    rw [cut_twice]
    exact fun l hl => (sized_twice l hl).2
  have hserved := served_of_serve hsize
  rw [cut_twice, messages_twice] at hserved
  exact hserved

theorem deliveries_twice :
    deliveriesOf (Connection.serve [twiceBytes]).2 = [.register "cam", .ok] := by
  rw [served_twice.deliveries introduces_twice]
  rfl

/-- Two callers, one after the other, and what that device sends while each of them waits. -/
def twoCalls : List Callers.Act :=
  [.join ⟨"get", [], Session.standardTimeout, .plain⟩, .proceed 0, .proceed 0, .proceed 0,
    .proceed 0, .deliver (.message (.register "cam")), .proceed 0,
    .join ⟨"put", [], Session.standardTimeout, .plain⟩, .proceed 1, .proceed 1, .proceed 1,
    .proceed 1, .deliver (.message .ok), .proceed 1]

theorem stages_twoCalls :
    ((Callers.idle (Session.connect "cam" none Session.standardTimeout)).run twoCalls).map
      (·.callers.map Caller.stage)
        = some [.finished (some 1) (.ok (.register "cam")), .finished (some 2) (.ok .ok)] := by
  rfl

/-- The first of them has its answer from the introduction that comes late; had the device sent it
as a result, nothing would be different. -/
theorem answers_come_from_device_twice :
    ∃ c, (∀ l ∈ (cut (FrameBuffer.stream [twiceBytes])).1, l.length ≤ maxFrameSize) ∧
      Introduces (messages (cut (FrameBuffer.stream [twiceBytes])).1) [] "cam"
        [.register "cam", .ok] ∧
      (∀ m ∈ Callers.delivered twoCalls, m ∈ deliveriesOf (Connection.serve [twiceBytes]).2) ∧
      (Callers.idle (Session.connect "cam" none Session.standardTimeout)).run twoCalls = some c ∧
      (Callers.idle (Session.connect "cam" none Session.standardTimeout)).run
        (twoCalls.map (·.retype fun _ => .result)) = some (c.retype fun _ => .result) := by
  have hsize : ∀ l ∈ (cut (FrameBuffer.stream [twiceBytes])).1, l.length ≤ maxFrameSize := by
    rw [cut_twice]
    exact fun l hl => (sized_twice l hl).2
  have hsome : Introduces (messages (cut (FrameBuffer.stream [twiceBytes])).1) [] "cam"
      [.register "cam", .ok] := by
    rw [cut_twice, messages_twice]
    exact introduces_twice
  have hdevice : ∀ m ∈ Callers.delivered twoCalls,
      m ∈ deliveriesOf (Connection.serve [twiceBytes]).2 := by
    rw [deliveries_twice]
    exact fun m hm => hm
  obtain ⟨c, hrun, _⟩ := Option.map_eq_some_iff.1 stages_twoCalls
  exact ⟨c, hsize, hsome, hdevice, hrun,
    (answers_come_from_device hsize hsome rfl hdevice hrun).2 fun _ => .result⟩

/-- A call is answered by a message that is a call. -/
theorem introduction_answers_call :
    ∃ c caller, (∀ m ∈ Callers.delivered twoCalls,
        m ∈ deliveriesOf (Connection.serve [twiceBytes]).2) ∧
      (Callers.idle (Session.connect "cam" none Session.standardTimeout)).run twoCalls = some c ∧
      caller ∈ c.callers ∧ caller.stage = .finished (some 1) (.ok (.register "cam")) ∧
      (Message.register "cam").type ≠ .result := by
  obtain ⟨c, hrun, hstages⟩ := Option.map_eq_some_iff.1 stages_twoCalls
  have hfirst :
      CallStage.finished (some 1) (.ok (.register "cam")) ∈ c.callers.map Caller.stage := by
    rw [hstages]
    exact List.mem_cons_self
  obtain ⟨caller, hcaller, hstage⟩ := List.mem_map.1 hfirst
  refine ⟨c, caller, ?_, hrun, hcaller, hstage, by decide⟩
  rw [deliveries_twice]
  exact fun m hm => hm

end KeywordRunner.Server
