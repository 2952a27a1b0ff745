import KeywordRunner.Proofs.Server.Keeping

/-!
# Proofs.Server.Service — what a device gets, from its first byte to the teardown

Let the complete lines of a stream be decoded, and let what is no message be left out. Each message
before the first introduction is answered by an error, the introduction is answered once and makes
the one session, and that session gets every message up to the first kill signal. In the end the
session is not registered any more and closed. All this holds of a connection by itself (`Served`),
and of a connection among others (`Departed`), whoever else acts on the server in between.

* **`device_is_served`** — the theorem.
-/

namespace KeywordRunner.Server

open Wire (FrameBuffer Message cut delimiter encodeFrame joined lineBytes maxFrameSize verdict?)

/-! ## A connection by itself -/

/-- The first introduction in a list of messages, with what is before and behind it. -/
structure Introduces (ms before : List Message) (deviceId : String) (after : List Message) :
    Prop where
  before_refused : ∀ m ∈ before, m.registerDeviceId? = none
  accepted : ∃ m, m.registerDeviceId? = some deviceId ∧ ms = before ++ m :: after

/-- The messages up to the first kill signal. -/
def untilKill (ms : List Message) : List Message := ms.takeWhile fun m => !m.isKillSignal

/-- What a connection comes to and what it does when its device has sent these messages and no
more. -/
structure Served (ms : List Message) (c : Connection) (es : List Effect) : Prop where
  phase : c.dialogue.lifecycle.phase = .closed
  session : c.dialogue.session = none
  sends : c.dialogue.sends = false
  complaints : ∀ fault, .complain fault ∉ es
  stranger : (∀ m ∈ ms, m.registerDeviceId? = none) →
    es = ms.map (fun _ => .reply .error) ++ [.stopWriter]
  guest : ∀ before deviceId after, Introduces ms before deviceId after →
    es = before.map (fun _ => .reply .error) ++ [.enlist deviceId, .announce, .reply .ok] ++
      (untilKill after).map .deliver ++ [.unlist, .retire, .hangUp, .stopWriter]

theorem introduces_or (ms : List Message) :
    (∀ m ∈ ms, m.registerDeviceId? = none) ∨
      ∃ before deviceId after, Introduces ms before deviceId after := by
  induction ms with
  | nil => exact Or.inl fun m hm => absurd hm List.not_mem_nil
  | cons m ms ih =>
    rcases Option.eq_none_or_eq_some m.registerDeviceId? with hm | ⟨deviceId, hm⟩
    · rcases ih with hnone | ⟨before, deviceId, after, hbefore, m', hm', rfl⟩
      · exact Or.inl (List.forall_mem_cons.2 ⟨hm, hnone⟩)
      · have hbefore' : ∀ b ∈ m :: before, b.registerDeviceId? = none :=
          List.forall_mem_cons.2 ⟨hm, hbefore⟩
        exact Or.inr ⟨m :: before, deviceId, after, hbefore', m', hm', rfl⟩
    · exact Or.inr ⟨[], deviceId, ms, fun m hm => absurd hm List.not_mem_nil, m, hm, rfl⟩

theorem conversation_of_introduces {ms before after : List Message} {deviceId : String}
    (h : Introduces ms before deviceId after) :
    conversation ms = before.map (fun _ => .reply .error) ++
      [.enlist deviceId, .announce, .reply .ok] ++ (untilKill after).map .deliver ++ farewell := by
  obtain ⟨m, hm, rfl⟩ := h.accepted
  exact conversation_of_some h.before_refused hm

theorem complain_not_mem_conversation (ms : List Message) (fault : TransitionFault) :
    .complain fault ∉ conversation ms := by
  rcases introduces_or ms with hnone | ⟨before, deviceId, after, hsome⟩
  · rw [conversation_of_none hnone]
    simp
  · rw [conversation_of_introduces hsome]
    simp [farewell]

theorem served_of_serve {pieces : List ByteArray}
    (hsize : ∀ l ∈ (cut (FrameBuffer.stream pieces)).1, l.length ≤ maxFrameSize) :
    Served (messages (cut (FrameBuffer.stream pieces)).1) (Connection.serve pieces).1
      (Connection.serve pieces).2 := by
  obtain ⟨heffects, n, hclosed⟩ := Connection.serve_eq hsize
  rw [heffects]
  refine ⟨by rw [hclosed], by rw [hclosed], by rw [hclosed], complain_not_mem_conversation _,
    conversation_of_none, fun before deviceId after h => conversation_of_introduces h⟩

/-- A device that sends frames is understood. -/
theorem messages_lineBytes {ms : List Message} (hfits : ∀ m ∈ ms, ∀ j ∈ m.args, j.Fits 125)
    (hreals : ∀ m ∈ ms, ∀ j ∈ m.args, ∀ n ∈ j.reals, n.ReadsBack) :
    messages (ms.map lineBytes) = ms := by
  unfold messages
  rw [Wire.verdicts_lineBytes hfits hreals, List.filterMap_map]
  exact List.filterMap_some

/-- Frames of few characters are short enough. -/
theorem sized_of_short {ms : List Message}
    (h : ∀ m ∈ ms, (Wire.escapeChars (Json.write m.toJson)).length ≤ 100) :
    ∀ l ∈ ms.map lineBytes, delimiter ∉ l ∧ l.length ≤ maxFrameSize := by
  refine Wire.sized_lineBytes fun m hm => ?_
  have hle := Wire.utf8ByteSize_encodeFrame_le m
  have hshort := h m hm
  have hmax : 4 * (100 + 1) ≤ maxFrameSize + 1 := by decide
  omega

/-- A connection that receives a frame first handles its message. -/
theorem receive_frame {m : Message} (hfits : ∀ j ∈ m.args, j.Fits 125)
    (hreals : ∀ j ∈ m.args, ∀ n ∈ j.reals, n.ReadsBack) :
    ((Connection.start.receive (encodeFrame m).toUTF8).1.dialogue,
        (Connection.start.receive (encodeFrame m).toUTF8).2) = Dialogue.start.handleAll [m] := by
  have hnot : delimiter ∉ lineBytes m :=
    Wire.delimiter_not_mem_utf8 (Wire.newline_not_mem_frameLine m)
  have hline : (cut (lineBytes m ++ [delimiter])).1 = [m].map lineBytes := by
    rw [Wire.cut_line hnot]
    rfl
  have hmessages : messages ([m].map lineBytes) = [m] :=
    messages_lineBytes (List.forall_mem_singleton.2 hfits) (List.forall_mem_singleton.2 hreals)
  have hempty : Connection.start.buffer.waiting = [] := rfl
  have hwaiting : (Connection.start.buffer.feed (encodeFrame m).toUTF8).waiting
      = lineBytes m ++ [delimiter] := by
    rw [FrameBuffer.waiting_feed, Wire.bytes_encodeFrame, hempty, List.nil_append]
  have hreceive := (Connection.receive_eq (c := Connection.start) rfl (encodeFrame m).toUTF8).1
  rw [hwaiting, hline, hmessages] at hreceive
  exact hreceive

theorem receive_introduction (deviceId : String) (h : deviceId ≠ "") :
    ∃ b, Connection.start.receive (encodeFrame (.register deviceId)).toUTF8
      = (⟨b, ⟨⟨.registered, 1⟩, some deviceId, true⟩⟩,
          [.enlist deviceId, .announce, .reply .ok]) := by
  have hargs : ∀ j ∈ (Message.register deviceId).args, j.Fits 125 ∧ j.reals = [] := by
    simp [Message.register, Json.Fits, Json.depth, Json.Canonical, Json.reals]
  have hreceive := receive_frame (m := .register deviceId) (fun j hj => (hargs j hj).1)
    fun j hj n hn => absurd ((hargs j hj).2 ▸ hn) List.not_mem_nil
  have hvalid : (Message.register deviceId).registerDeviceId? = some deviceId := by
    simp [Message.registerDeviceId?, Message.register, h]
  have hhandle : Dialogue.start.handleAll [.register deviceId]
      = (⟨⟨.registered, 1⟩, some deviceId, true⟩, [.enlist deviceId, .announce, .reply .ok]) := by
    rw [Dialogue.handleAll, Dialogue.start, Lifecycle.start, Dialogue.handle_anonymous, hvalid]
    rfl
  obtain ⟨hdialogue, heffects⟩ := Prod.mk.inj (hreceive.trans hhandle)
  refine ⟨(Connection.start.receive (encodeFrame (.register deviceId)).toUTF8).1.buffer, ?_⟩
  rw [← hdialogue, ← heffects]

theorem messages_of_noise {noise : List (List UInt8)}
    (h : ∀ l ∈ noise, verdict? l = none ∨ ∃ fault, verdict? l = some (.error fault)) :
    messages noise = [] := by
  induction noise with
  | nil => rfl
  | cons l noise ih =>
    obtain ⟨hl, hnoise⟩ := List.forall_mem_cons.1 h
    have hcons : messages (l :: noise) = messages [l] ++ messages noise :=
      Connection.messages_append [l] noise
    have hone : messages [l] = [] := by
      unfold messages
      rcases hl with hblank | ⟨fault, hfault⟩
      · rw [List.filterMap_cons_none hblank]
        rfl
      · rw [List.filterMap_cons_some hfault]
        rfl
    rw [hcons, hone, ih hnoise, List.nil_append]

/-- Two streams whose lines give the same messages lead to the same effects and to the same end. -/
theorem serve_congr {pieces pieces' : List ByteArray}
    (hsize : ∀ l ∈ (cut (FrameBuffer.stream pieces)).1, l.length ≤ maxFrameSize)
    (hsize' : ∀ l ∈ (cut (FrameBuffer.stream pieces')).1, l.length ≤ maxFrameSize)
    (hsame : messages (cut (FrameBuffer.stream pieces)).1
      = messages (cut (FrameBuffer.stream pieces')).1) :
    ((Connection.serve pieces).1.dialogue, (Connection.serve pieces).2)
      = ((Connection.serve pieces').1.dialogue, (Connection.serve pieces').2) := by
  have hreceive := Connection.receiveAll_eq (c := Connection.start) List.not_mem_nil hsize
  have hreceive' := Connection.receiveAll_eq (c := Connection.start) List.not_mem_nil hsize'
  have hserve := Connection.serve_of_receiveAll hreceive
  have hserve' := Connection.serve_of_receiveAll hreceive'
  have hwaiting : Connection.start.buffer.waiting = [] := rfl
  rw [hwaiting, List.nil_append] at hserve hserve'
  rw [hserve, hserve', hsame]

/-! ## A connection among others -/

theorem repliesOf_errors (ms : List Message) :
    repliesOf (ms.map fun _ => .reply .error) = ms.map fun _ => .error := by
  unfold repliesOf
  rw [List.filterMap_map]
  exact congrFun List.filterMap_eq_map ms

theorem deliveriesOf_errors (ms : List Message) :
    deliveriesOf (ms.map fun _ => .reply .error) = [] := by
  unfold deliveriesOf
  rw [List.filterMap_map]
  exact List.filterMap_eq_nil_iff.2 fun m _ => rfl

theorem repliesOf_deliveries (ms : List Message) : repliesOf (ms.map .deliver) = [] := by
  unfold repliesOf
  rw [List.filterMap_map]
  exact List.filterMap_eq_nil_iff.2 fun m _ => rfl

theorem deliveriesOf_deliveries (ms : List Message) : deliveriesOf (ms.map .deliver) = ms := by
  unfold deliveriesOf
  rw [List.filterMap_map]
  exact List.filterMap_some

/-- The session of a device gets what the device says up to the first kill signal. -/
theorem Served.deliveries {ms before after : List Message} {deviceId : String} {c : Connection}
    {es : List Effect} (h : Served ms c es) (hsome : Introduces ms before deviceId after) :
    deliveriesOf es = untilKill after := by
  rw [h.guest before deviceId after hsome, deliveriesOf_append, deliveriesOf_append,
    deliveriesOf_append, deliveriesOf_errors, deliveriesOf_deliveries]
  exact List.append_nil _

/-- What is left when a connection has torn itself down, where its device had sent these messages:
the replies of a device that never introduced itself, or the session of one that did. -/
structure Departed (t : Traffic) (deeds : List (Nat × Effect)) (i : Nat) (p : Peer)
    (ms : List Message) : Prop where
  served : Served ms p.connection (Traffic.deedsOf i deeds)
  stranger : (∀ m ∈ ms, m.registerDeviceId? = none) →
    p.key = none ∧ p.replies = ms.map (fun _ => .error) ∧
      ∀ (k : SessionKey) (deviceId : String),
        (Traffic.registrations deeds)[k]? ≠ some (i, deviceId)
  guest : ∀ before deviceId after, Introduces ms before deviceId after →
    ∃ (k : SessionKey) (s : Session), p.key = some k ∧ t.station.session? k = some s ∧
      (∀ (k' : SessionKey) (deviceId' : String),
        (Traffic.registrations deeds)[k']? = some (i, deviceId') ↔
          k' = k ∧ deviceId' = deviceId) ∧
      s.deviceId = deviceId ∧ s.inbox = untilKill after ∧ s.inboxOpen = false ∧ s.closed = true ∧
      (before.map (fun _ => Message.error) ++ [Message.ok]).Sublist s.outbox ∧
      ∀ deviceId', t.station.lookup? deviceId' ≠ some k

namespace Traffic

variable {callTimeout : Duration} {t t' : Traffic} {acts : List Act} {deeds : List (Nat × Effect)}
  {i : Nat} {p : Peer}

theorem exists_registration {deviceId : String} (h : .enlist deviceId ∈ deedsOf i deeds) :
    ∃ k : SessionKey, (registrations deeds)[k]? = some (i, deviceId) := by
  obtain ⟨⟨j, e⟩, hmem, he⟩ := List.mem_filterMap.1 h
  by_cases hj : j = i
  · subst hj
    obtain rfl : e = .enlist deviceId := by simpa using he
    have hregistered : (j, deviceId) ∈ registrations deeds :=
      List.mem_filterMap.2 ⟨_, hmem, rfl⟩
    exact List.mem_iff_getElem?.1 hregistered
  · exact absurd he (by simp [hj])

theorem departed_of_kept (h : Kept deeds t) {ms : List Message} (hget : t.peers[i]? = some p)
    (hserved : Served ms p.connection (deedsOf i deeds)) : Departed t deeds i p ms := by
  refine ⟨hserved, fun hnone => ?_, fun before deviceId after hsome => ?_⟩
  · have hdeeds := hserved.stranger hnone
    have hnot : ∀ (k : SessionKey) (deviceId : String),
        (registrations deeds)[k]? ≠ some (i, deviceId) := fun k deviceId hk => by
      have hmem := mem_deedsOf_of_registered hk
      rw [hdeeds] at hmem
      exact absurd hmem (by simp)
    have hkey : p.key = none := by
      rcases Option.eq_none_or_eq_some p.key with hkey | ⟨k, hkey⟩
      · exact hkey
      · obtain ⟨s, _, hs, _⟩ := h.keyed i p k hget hkey
        exact absurd hs (hnot k s.deviceId)
    refine ⟨hkey, ?_, hnot⟩
    rw [h.anonymous i p hget hkey, hdeeds, repliesOf_append, repliesOf_errors]
    exact List.append_nil _
  · have hdeeds := hserved.guest before deviceId after hsome
    obtain ⟨k, hk⟩ : ∃ k : SessionKey, (registrations deeds)[k]? = some (i, deviceId) := by
      refine exists_registration ?_
      rw [hdeeds]
      simp
    obtain ⟨p', hget', hkey⟩ := h.registered k i deviceId hk
    obtain rfl : p = p' := Option.some.inj (hget.symm.trans hget')
    obtain ⟨s, hs, hregistered, hkept, hunlisted⟩ := h.keyed i p k hget hkey
    have hdevice : s.deviceId = deviceId :=
      congrArg Prod.snd (Option.some.inj (hregistered.symm.trans hk))
    -- its registrations are numbered by its key, of which it has one
    have honly : ∀ (k' : SessionKey) (deviceId' : String),
        (registrations deeds)[k']? = some (i, deviceId') ↔ k' = k ∧ deviceId' = deviceId := by
      intro k' deviceId'
      constructor
      · intro hk'
        obtain ⟨q, hq, hkey'⟩ := h.registered k' i deviceId' hk'
        obtain rfl : p = q := Option.some.inj (hget.symm.trans hq)
        obtain rfl : k = k' := Option.some.inj (hkey.symm.trans hkey')
        exact ⟨rfl, congrArg Prod.snd (Option.some.inj (hk'.symm.trans hk))⟩
      · rintro ⟨rfl, rfl⟩
        exact hk
    refine ⟨k, s, hkey, hs, honly, hdevice, ?_, ?_, ?_, ?_, ?_⟩
    · rw [hkept.inbox, hserved.deliveries hsome]
    · refine Bool.eq_false_iff.2 fun hopen => hkept.inboxOpen.1 hopen ?_
      rw [hdeeds]
      simp
    · refine hkept.closed ?_
      rw [hdeeds]
      simp
    · have hmiddle : repliesOf [.enlist deviceId, .announce, .reply .ok] = [.ok] := rfl
      have hlast : repliesOf [.unlist, .retire, .hangUp, .stopWriter] = [] := rfl
      have houtbox := hkept.outbox
      rw [hdeeds, repliesOf_append, repliesOf_append, repliesOf_append, repliesOf_errors, hmiddle,
        repliesOf_deliveries, hlast, List.append_nil, List.append_nil] at houtbox
      exact houtbox
    · refine hunlisted ?_
      rw [hdeeds]
      simp

/-- A connection that has torn itself down has been served. -/
theorem History.departed (h : History callTimeout acts deeds t) (hget : t.peers[i]? = some p)
    (hover : isOver i acts = true) (hdone : p.pending = [])
    (hsize : ∀ l ∈ (cut (FrameBuffer.stream (receivedBy i acts))).1, l.length ≤ maxFrameSize) :
    Departed t deeds i p (messages (cut (FrameBuffer.stream (receivedBy i acts))).1) := by
  refine departed_of_kept h.kept hget ?_
  have hpresent := h.scripts.present i p hget
  rw [hdone, List.append_nil, decided, if_pos hover] at hpresent
  have hconnection : p.connection = (Connection.serve (receivedBy i acts)).1 :=
    congrArg Prod.fst hpresent
  have hdeeds : deedsOf i deeds = (Connection.serve (receivedBy i acts)).2 :=
    congrArg Prod.snd hpresent
  rw [hconnection, hdeeds]
  exact served_of_serve hsize

/-! ## To the end -/

/-- What a connection has decided to do it can do, as far as there is room for its replies; it waits
for nothing but that. -/
theorem run_performs {es : List Effect} (hget : t.peers[i]? = some p) (hpending : p.pending = es) :
    ∃ t' p', t.run (List.replicate es.length (.perform i)) = some t' ∧
      t'.peers[i]? = some p' ∧ p'.pending = [] ∧ p'.connection = p.connection := by
  induction es generalizing t p with
  | nil => exact ⟨t, p, rfl, hget, hpending, rfl⟩
  | cons e later ih =>
    have hlt : i < t.peers.length := (List.getElem?_eq_some_iff.1 hget).1
    have hstep : ∃ t₁ q, t.step (.perform i) = some t₁ ∧ t₁.peers[i]? = some q ∧
        q.pending = later ∧ q.connection = p.connection := by
      have hperform : t.step (.perform i) = t.peers[i]?.bind _ := rfl
      rw [hget, Option.bind_some, hpending] at hperform
      exact ⟨_, _, hperform, List.getElem?_set_self hlt, perform_pending _ _ e,
        perform_connection _ _ e⟩
    obtain ⟨t₁, q, hstep, hq, hlater, hconnection⟩ := hstep
    obtain ⟨t', p', hrun, hp', hidle, hsame⟩ := ih hq hlater
    refine ⟨t', p', ?_, hp', hidle, hsame.trans hconnection⟩
    show (t.step (.perform i)).bind _ = _
    rw [hstep]
    exact hrun

theorem receivedBy_performs (i n : Nat) :
    receivedBy i (List.replicate n (.perform i)) = [] :=
  List.filterMap_eq_nil_iff.2 fun act hact => by rw [List.eq_of_mem_replicate hact]

theorem History.phase_ne_closed (h : History callTimeout acts deeds t) (hget : t.peers[i]? = some p)
    (hover : isOver i acts = false) : p.connection.dialogue.lifecycle.phase ≠ .closed := by
  have hpresent := h.scripts.present i p hget
  rw [decided, hover, if_neg Bool.false_ne_true] at hpresent
  have hconnection : p.connection = (Connection.start.receiveAll (receivedBy i acts)).1 :=
    congrArg Prod.fst hpresent
  obtain ⟨ms, hms⟩ := Connection.receiveAll_handles Connection.start (receivedBy i acts)
  have hdialogue : p.connection.dialogue = (Dialogue.start.handleAll ms).1 := by
    rw [hconnection]
    exact congrArg Prod.fst hms
  rw [hdialogue]
  exact Dialogue.stands_start.phase_ne_closed (by decide) ms

/-- Whatever the others have done, a connection whose device says no more can go on to its end, as
far as there is room for what it has yet to reply. -/
theorem can_depart (hrun : (Traffic.idle callTimeout).run acts = some t)
    (hget : t.peers[i]? = some p) :
    ∃ more t' p', (Traffic.idle callTimeout).run (acts ++ more) = some t' ∧
      t'.peers[i]? = some p' ∧ isOver i (acts ++ more) = true ∧ p'.pending = [] ∧
      receivedBy i (acts ++ more) = receivedBy i acts := by
  -- it does what is pending; then, unless it is over, it ends and does the teardown
  obtain ⟨t₁, p₁, hrun₁, hget₁, hidle₁, hsame₁⟩ := run_performs hget rfl
  by_cases hover : isOver i acts = true
  · refine ⟨List.replicate p.pending.length (.perform i), t₁, p₁, ?_, hget₁, ?_, hidle₁, ?_⟩
    · rw [run_append, hrun, Option.bind_some, hrun₁]
    · rw [isOver_append, hover, Bool.true_or]
    · rw [receivedBy_append, receivedBy_performs, List.append_nil]
  · have hopen : p₁.connection.dialogue.lifecycle.phase ≠ .closed := by
      rw [hsame₁]
      exact (history_of_run hrun).phase_ne_closed hget (Bool.eq_false_iff.2 hover)
    have hlt₁ : i < t₁.peers.length := (List.getElem?_eq_some_iff.1 hget₁).1
    have hfinish : t₁.step (.finish i) = some { t₁ with
        peers := t₁.peers.set i { p₁ with
          connection := p₁.connection.finish.1
          pending := p₁.connection.finish.2 } } := by
      have hready : (p₁.pending.isEmpty && !p₁.connection.dialogue.lifecycle.phase.isTerminal)
          = true := by
        rw [hidle₁]
        simpa [Phase.isTerminal] using hopen
      show t₁.peers[i]?.bind _ = _
      rw [hget₁, Option.bind_some, if_pos hready]
    obtain ⟨t', p', hrun', hget', hidle', _⟩ :=
      run_performs (t := { t₁ with peers := _ }) (List.getElem?_set_self hlt₁) rfl
    refine ⟨List.replicate p.pending.length (.perform i) ++ .finish i ::
      List.replicate p₁.connection.finish.2.length (.perform i), t', p', ?_, hget', ?_, hidle', ?_⟩
    · rw [run_append, hrun, Option.bind_some, run_append, hrun₁, Option.bind_some]
      show (t₁.step (.finish i)).bind _ = _
      rw [hfinish]
      exact hrun'
    · rw [isOver_append, isOver_append]
      simp [isOver]
    · have hreceived : receivedBy i (.finish i ::
          List.replicate p₁.connection.finish.2.length (.perform i)) = [] :=
        receivedBy_performs i _
      rw [receivedBy_append, receivedBy_append, receivedBy_performs, hreceived, List.append_nil,
        List.append_nil]

end Traffic

/-- **What a device gets.** A stream of lines that are not too long is served as its messages say,
in whatever pieces it comes. Lines that are blank or no message make no difference, wherever they
are put in. Among others, whatever they do, a connection that has torn itself down has served its
device and left the session behind accordingly; and every connection whose device says no more can
get there, as far as its writer makes room for its replies. -/
theorem device_is_served :
    (∀ pieces : List ByteArray,
      (∀ l ∈ (cut (FrameBuffer.stream pieces)).1, l.length ≤ maxFrameSize) →
      Served (messages (cut (FrameBuffer.stream pieces)).1) (Connection.serve pieces).1
        (Connection.serve pieces).2) ∧
    (∀ lines noise later rest pieces pieces',
      FrameBuffer.stream pieces = joined (lines ++ later) rest →
      FrameBuffer.stream pieces' = joined (lines ++ noise ++ later) rest →
      (∀ l ∈ lines ++ noise ++ later, delimiter ∉ l ∧ l.length ≤ maxFrameSize) →
      delimiter ∉ rest →
      (∀ l ∈ noise, verdict? l = none ∨ ∃ fault, verdict? l = some (.error fault)) →
      ((Connection.serve pieces').1.dialogue, (Connection.serve pieces').2)
        = ((Connection.serve pieces).1.dialogue, (Connection.serve pieces).2)) ∧
    (∀ callTimeout acts t i p, (Traffic.idle callTimeout).run acts = some t →
      t.peers[i]? = some p →
      (∀ l ∈ (cut (FrameBuffer.stream (Traffic.receivedBy i acts))).1, l.length ≤ maxFrameSize) →
      Traffic.isOver i acts = true → p.pending = [] →
      Departed t ((Traffic.idle callTimeout).record acts) i p
        (messages (cut (FrameBuffer.stream (Traffic.receivedBy i acts))).1)) ∧
    ∀ callTimeout acts t i p, (Traffic.idle callTimeout).run acts = some t →
      t.peers[i]? = some p →
      ∃ more t' p', (Traffic.idle callTimeout).run (acts ++ more) = some t' ∧
        t'.peers[i]? = some p' ∧ Traffic.isOver i (acts ++ more) = true ∧ p'.pending = [] ∧
        Traffic.receivedBy i (acts ++ more) = Traffic.receivedBy i acts := by
  refine ⟨fun pieces hsize => served_of_serve hsize, ?_, ?_, ?_⟩
  · intro lines noise later rest pieces pieces' hstream hstream' hlines hrest hnoise
    have hcut' : (cut (FrameBuffer.stream pieces')).1 = lines ++ noise ++ later := by
      rw [hstream', Wire.cut_joined_rest (fun l hl => (hlines l hl).1) hrest]
    have hkept : ∀ l ∈ lines ++ later, l ∈ lines ++ noise ++ later := by
      intro l hl
      rcases List.mem_append.1 hl with hbefore | hafter
      · exact List.mem_append_left _ (List.mem_append_left _ hbefore)
      · exact List.mem_append_right _ hafter
    have hcut : (cut (FrameBuffer.stream pieces)).1 = lines ++ later := by
      rw [hstream, Wire.cut_joined_rest (fun l hl => (hlines l (hkept l hl)).1) hrest]
    refine serve_congr (fun l hl => ?_) (fun l hl => ?_) ?_
    · exact (hlines l (hcut' ▸ hl)).2
    · exact (hlines l (hkept l (hcut ▸ hl))).2
    · rw [hcut, hcut', Connection.messages_append, Connection.messages_append,
        Connection.messages_append, messages_of_noise hnoise, List.append_nil]
  · intro callTimeout acts t i p hrun hget hsize hover hdone
    exact (Traffic.history_of_run hrun).departed hget hover hdone hsize
  · intro callTimeout acts t i p hrun hget
    exact Traffic.can_depart hrun hget

/-- What a device says that sends a kill signal too early, introduces itself, and goes on after its
second kill signal. -/
def chatter : List Message := [.killSignal, .register "cam", .ok, .killSignal, .error]

theorem messages_chatter : messages (chatter.map lineBytes) = chatter := by
  refine messages_lineBytes ?_ ?_
  · simp [chatter, Message.killSignal, Message.register, Message.ok, Message.error, Message.result,
      Json.Fits, Json.depth, Json.Canonical]
  · simp [chatter, Message.killSignal, Message.register, Message.ok, Message.error, Message.result,
      Json.reals]

theorem sized_chatter :
    ∀ l ∈ chatter.map lineBytes, delimiter ∉ l ∧ l.length ≤ maxFrameSize :=
  sized_of_short (by decide +kernel)

theorem introduces_chatter : Introduces chatter [.killSignal] "cam" [.ok, .killSignal, .error] where
  before_refused := by decide
  accepted := ⟨.register "cam", by decide, rfl⟩

theorem run_first (callTimeout : Duration) (bytes : ByteArray) :
    ∃ t p, (Traffic.idle callTimeout).run [.accept none, .receive 0 bytes] = some t ∧
      t.peers[0]? = some p := ⟨_, _, rfl, rfl⟩

/-- That device, cut inside its first frame; with a blank line and one that is no message put in;
and at a server. -/
theorem device_is_served_chatter :
    (Connection.serve [((joined (chatter.map lineBytes) []).take 3).toByteArray,
        ((joined (chatter.map lineBytes) []).drop 3).toByteArray]).2
      = [.reply .error, .enlist "cam", .announce, .reply .ok, .deliver .ok, .unlist, .retire,
          .hangUp, .stopWriter] ∧
    (Connection.serve [(joined ([lineBytes .killSignal] ++ [[], [125]]
        ++ (chatter.tail.map lineBytes)) []).toByteArray]).2
      = (Connection.serve [(joined (chatter.map lineBytes) []).toByteArray]).2 ∧
    ∃ more t k s, (Traffic.idle ⟨1000⟩).run
        ([.accept none, .receive 0 (joined (chatter.map lineBytes) []).toByteArray] ++ more)
          = some t ∧
      t.station.session? k = some s ∧ s.deviceId = "cam" ∧ s.inbox = [.ok] ∧ s.closed = true ∧
      t.station.lookup? "cam" ≠ some k := by
  have hcut : cut (joined (chatter.map lineBytes) []) = (chatter.map lineBytes, []) :=
    Wire.cut_joined_rest (fun l hl => (sized_chatter l hl).1) List.not_mem_nil
  refine ⟨?_, ?_, ?_⟩
  · have hstream : FrameBuffer.stream [((joined (chatter.map lineBytes) []).take 3).toByteArray,
        ((joined (chatter.map lineBytes) []).drop 3).toByteArray]
          = joined (chatter.map lineBytes) [] := by
      rw [FrameBuffer.stream, List.flatMap_cons, List.flatMap_singleton,
        List.toList_data_toByteArray, List.toList_data_toByteArray, List.take_append_drop]
    have hserved := device_is_served.1
      [((joined (chatter.map lineBytes) []).take 3).toByteArray,
        ((joined (chatter.map lineBytes) []).drop 3).toByteArray] (by
          rw [hstream, hcut]
          exact fun l hl => (sized_chatter l hl).2)
    rw [hstream, hcut, messages_chatter] at hserved
    exact hserved.guest _ _ _ introduces_chatter
  · have hnoise : ∀ l ∈ [[], [125]],
        verdict? l = none ∨ ∃ fault, verdict? l = some (.error fault) := by
      have hblank : Wire.lineText [] = "" := by cbv
      have hbrace : Wire.lineText [125] = "\x7d" := by cbv
      have hfault : Wire.decodeFrame "\x7d" = .error (.json .mismatch) := by cbv
      have hlast := Wire.verdict?_of_text hbrace (by decide)
      rw [hfault] at hlast
      simp only [List.forall_mem_cons]
      exact ⟨Or.inl (if_pos hblank), Or.inr ⟨_, hlast⟩, fun l hl => absurd hl List.not_mem_nil⟩
    have hshort : ∀ l ∈ [[], [125]], delimiter ∉ l ∧ l.length ≤ maxFrameSize := by decide
    have hserve := device_is_served.2.1 [lineBytes .killSignal] [[], [125]]
      (chatter.tail.map lineBytes) [] [(joined (chatter.map lineBytes) []).toByteArray]
      [(joined ([lineBytes .killSignal] ++ [[], [125]]
        ++ (chatter.tail.map lineBytes)) []).toByteArray]
      (by
        have hsplit : [lineBytes .killSignal] ++ chatter.tail.map lineBytes
            = chatter.map lineBytes := rfl
        rw [FrameBuffer.stream, List.flatMap_singleton, List.toList_data_toByteArray, hsplit])
      (by rw [FrameBuffer.stream, List.flatMap_singleton, List.toList_data_toByteArray])
      (by
        intro l hl
        rcases List.mem_append.1 hl with hbefore | hafter
        · rcases List.mem_append.1 hbefore with hfirst | hmiddle
          · exact sized_chatter l (List.mem_cons.2 (Or.inl (List.mem_singleton.1 hfirst)))
          · exact hshort l hmiddle
        · exact sized_chatter l (List.mem_cons_of_mem _ hafter))
      List.not_mem_nil hnoise
    exact (Prod.mk.inj hserve).2
  · obtain ⟨t₁, p₁, hrun, hfirst⟩ :=
      run_first ⟨1000⟩ (joined (chatter.map lineBytes) []).toByteArray
    obtain ⟨more, t, p, hmore, hget, hover, hdone, hreceived⟩ :=
      device_is_served.2.2.2 _ _ t₁ 0 p₁ hrun hfirst
    have hbytes : FrameBuffer.stream (Traffic.receivedBy 0
        ([.accept none, .receive 0 (joined (chatter.map lineBytes) []).toByteArray] ++ more))
          = joined (chatter.map lineBytes) [] := by
      rw [hreceived]
      show FrameBuffer.stream [(joined (chatter.map lineBytes) []).toByteArray] = _
      rw [FrameBuffer.stream, List.flatMap_singleton, List.toList_data_toByteArray]
    have hdeparted := device_is_served.2.2.1 _ _ t 0 p hmore hget (by
      rw [hbytes, hcut]
      exact fun l hl => (sized_chatter l hl).2) hover hdone
    rw [hbytes, hcut, messages_chatter] at hdeparted
    obtain ⟨k, s, _, hs, _, hdevice, hinbox, _, hclosed, _, hgone⟩ :=
      hdeparted.guest _ _ _ introduces_chatter
    exact ⟨more, t, k, s, hmore, hs, hdevice, hinbox, hclosed, hgone "cam"⟩

end KeywordRunner.Server
