import KeywordRunner.Proofs.Server.Outboxes
import KeywordRunner.Proofs.Server.Ownership

/-!
# Proofs.Server.Handshake — where the answer to an introduction stands

A session is registered before its connection answers the introduction, and both the answer and the
messages of the host go to the same writer. So what stands before the answer are the errors from
before the introduction, and whatever the host handed to the session between its registration and
the answer.

* **`handshake_reply_place`** — what a device gets before and after the answer.
* **`call_before_handshake_reply`** — a call may come before it.
-/

namespace KeywordRunner.Server

open Wire (Message encodeFrame)

namespace Traffic

variable {callTimeout : Duration} {t t' : Traffic} {act : Act} {acts : List Act}
  {deeds : List (Nat × Effect)} {i : Nat} {p : Peer} {d : String} {k : SessionKey} {s : Session}

/-- What a connection has for its session is what it replies. -/
theorem Kept.replied_eq (h : Kept deeds t) (hk : (registrations deeds)[k]? = some (i, d))
    (act : Act) : t.replied k act = repliesOf (deedsOf i (t.deed act)) := by
  by_cases hperform : ∃ j, act = .perform j
  · obtain ⟨j, rfl⟩ := hperform
    unfold replied deed
    dsimp only
    cases hget : t.peers[j]? with
    | none => rfl
    | some p =>
      cases hpending : p.pending with
      | nil => simp [hpending, repliesOf, deedsOf]
      | cons e later =>
        simp only [Option.bind_some, hpending, List.head?_cons, Option.map_some, Option.getD_some,
          Option.toList_some, List.map_cons, List.map_nil]
        by_cases hji : j = i
        · subst hji
          rw [Peer.replied, if_pos ((h.made_by hget hk).1 rfl), deedsOf_self]
        · rw [Peer.replied, if_neg fun hkey => hji ((h.made_by hget hk).2 hkey).symm,
            deedsOf_of_ne hji]
          rfl
  · have hquiet : ∀ j, act ≠ .perform j := fun j heq => hperform ⟨j, heq⟩
    rw [deed_of_ne hquiet]
    cases act with
    | perform j => exact absurd rfl (hquiet j)
    | _ => rfl

/-- A connection has nothing for its session but the answer to the introduction, and that once. -/
theorem replied_cases (h : Kept deeds t) (hscripts : InStep acts deeds t)
    (hk : (registrations deeds)[k]? = some (i, d)) (act : Act) :
    t.replied k act = [] ∨
      t.replied k act = [.ok] ∧ t.deed act = [(i, .reply .ok)] ∧ .reply .ok ∉ deedsOf i deeds := by
  rw [h.replied_eq hk]
  by_cases hperform : act = .perform i
  · subst hperform
    obtain ⟨p, hget, _⟩ := h.registered k i d hk
    obtain ⟨more, ms, hms⟩ := hscripts.conversation hget
    cases hpending : p.pending with
    | nil =>
      have hdeed : t.deed (.perform i) = [] := by
        unfold deed
        dsimp only
        rw [hget, Option.bind_some, hpending]
        rfl
      rw [hdeed]
      exact Or.inl rfl
    | cons e later =>
      rw [deed_perform hget hpending, deedsOf_self]
      rw [hpending, List.cons_append] at hms
      cases e with
      | reply m =>
        obtain ⟨rfl, hnot⟩ := reply_after_enlist hms (mem_deedsOf_of_registered hk)
        exact Or.inr ⟨rfl, rfl, hnot⟩
      | _ => exact Or.inl rfl
  · have hnone : deedsOf i (t.deed act) = [] := by
      cases act with
      | perform j =>
        apply deedsOf_deed_of_ne
        exact fun heq => hperform (congrArg Act.perform (Option.some.inj heq))
      | _ => rfl
    rw [hnone]
    exact Or.inl rfl

/-- A registration is made by the act of its connection. Its id stands for the new session, which
begins with the replies from before. -/
theorem registration_of_step (h : Kept deeds t) (hscripts : InStep acts deeds t)
    (hstep : t.step act = some t') (hnew : (registrations deeds)[k]? = none)
    (hk : (registrations (deeds ++ t.deed act))[k]? = some (i, d)) :
    t.station.session? k = none ∧ t.deed act = [(i, .enlist d)] ∧
      t'.station.lookup? d = some k ∧
      ∃ s, t'.station.session? k = some s ∧ s.outbox = repliesOf (deedsOf i deeds) := by
  -- a step without an effect registers nothing
  by_cases hperform : ∃ j, act = .perform j
  · obtain ⟨j, rfl⟩ := hperform
    cases steps_of_step hstep with
    | @perform _ p e later waits hget hpending =>
      rw [deed_perform hget hpending] at hk ⊢
      cases e with
      | enlist deviceId =>
        have hregistrations : registrations (deeds ++ [(j, .enlist deviceId)])
            = registrations deeds ++ [(j, deviceId)] := registrations_append _ _
        rw [hregistrations] at hk
        rcases getElem?_append_cases hk with hold | ⟨hlast, hmade⟩
        · exact absurd (hnew.symm.trans hold) (by simp)
        · obtain ⟨rfl, rfl⟩ := Prod.mk.inj hmade
          obtain ⟨more, ms, hms⟩ := hscripts.conversation hget
          rw [hpending, List.cons_append] at hms
          have hkey : p.key = none := h.key_eq_none hget (reply_of_mem_before_enlist hms)
          have hlength : k = t.station.sessions.length := hlast.trans h.count
          subst hlength
          refine ⟨List.getElem?_eq_none (Nat.le_refl _), rfl, ?_, _,
            Station.session?_enlist_last _ _, ?_⟩
          · exact (Station.lookup?_enlist _ _ _).trans (if_pos rfl)
          · exact h.anonymous i p hget hkey
      | _ =>
        rw [registrations_concat_of_ne (by simp)] at hk
        exact absurd (hnew.symm.trans hk) (by simp)
    | aside haside => exact haside.elim
  · rw [deed_of_ne fun j heq => hperform ⟨j, heq⟩, List.append_nil] at hk
    exact absurd (hnew.symm.trans hk) (by simp)

/-- A connection that is about to answer the introduction has registered its session, its writer is
still there, and it has replied with errors only. -/
theorem History.about_to_answer (h : History callTimeout acts deeds t)
    (hreply : t.deed (.perform i) = [(i, .reply .ok)]) :
    ∃ (k : SessionKey) (d : String), (registrations deeds)[k]? = some (i, d) ∧
      .reply .ok ∉ deedsOf i deeds ∧ .stopWriter ∉ deedsOf i deeds ∧
      ∀ m ∈ repliesOf (deedsOf i deeds), m = .error := by
  obtain ⟨e, he, heq⟩ := List.map_eq_singleton_iff.1 hreply
  obtain rfl : e = .reply .ok := congrArg Prod.snd heq
  obtain ⟨p, hget, hhead⟩ := Option.bind_eq_some_iff.1 (Option.toList_eq_singleton_iff.1 he)
  obtain ⟨later, hpending⟩ := List.head?_eq_some_iff.1 hhead
  -- what it has done up to here is the beginning of its conversation
  obtain ⟨more, ms, hms⟩ := h.scripts.conversation hget
  rw [hpending, List.cons_append] at hms
  obtain ⟨d, henlist⟩ := enlist_mem_before_ok hms
  have hnot : .reply .ok ∉ deedsOf i deeds := (reply_after_enlist hms henlist).2
  obtain ⟨k, hk⟩ := exists_registration henlist
  refine ⟨k, d, hk, hnot, stopWriter_not_mem_before_reply hms, fun m hm => ?_⟩
  have hmem : .reply m ∈ deedsOf i deeds := mem_repliesOf.1 hm
  rcases reply_mem_conversation (hms ▸ List.mem_append_left _ hmem) with herror | hok
  · exact herror
  · exact absurd (hok ▸ hmem) hnot

/-- **Up to the answer to the introduction** a device gets the errors from before it, and then what
the host has handed to the session. -/
theorem History.outbox_before_reply (h : History callTimeout acts deeds t)
    (hk : (registrations deeds)[k]? = some (i, d)) (hs : t.station.session? k = some s)
    (hnot : .reply .ok ∉ deedsOf i deeds) :
    s.outbox = repliesOf (deedsOf i deeds) ++ (Traffic.idle callTimeout).handedTo k acts := by
  induction h generalizing s with
  | idle => exact absurd hk (by simp [registrations])
  | @step acts deeds t t' act before hstep ih =>
    rw [handedTo_append before.run, handedTo_singleton]
    rw [deedsOf_append] at hnot ⊢
    have hbefore : .reply .ok ∉ deedsOf i deeds := fun hmem => hnot (List.mem_append_left _ hmem)
    rcases Option.eq_none_or_eq_some (registrations deeds)[k]? with hnew | ⟨x, hold⟩
    · -- the session has just been made
      obtain ⟨hnone, hdeed, _, s', hs', houtbox⟩ :=
        registration_of_step before.kept before.scripts hstep hnew hk
      obtain rfl := Option.some.inj (hs.symm.trans hs')
      have hquiet : repliesOf [Effect.enlist d] = [] := rfl
      rw [houtbox, hdeed, deedsOf_self, repliesOf_append, hquiet, before.handedTo_eq_nil hnone,
        handed, hnone]
      simp
    · obtain rfl := Option.some.inj ((registration_append hold _).symm.trans hk)
      obtain ⟨p, hget, hkey⟩ := before.kept.registered k i d hold
      obtain ⟨s₀, hs₀, _⟩ := before.kept.keyed i p k hget hkey
      have hquiet : t.replied k act = [] := by
        rcases replied_cases before.kept before.scripts hold act with hquiet | ⟨_, hdeed, _⟩
        · exact hquiet
        · rw [hdeed, deedsOf_self] at hnot
          exact absurd (List.mem_append_right _ List.mem_cons_self) hnot
      obtain ⟨s', hs', houtbox⟩ := outbox_of_step hstep hs₀ hquiet
      obtain rfl := Option.some.inj (hs.symm.trans hs')
      have hreplies := before.kept.replied_eq hold act
      rw [hquiet] at hreplies
      rw [houtbox, ih hold hs₀ hbefore, repliesOf_append, ← hreplies, List.append_nil,
        List.append_assoc]

/-- **After the answer** a device gets nothing but what the host hands to the session. -/
theorem History.outbox_after_reply (h : History callTimeout acts deeds t)
    (hk : (registrations deeds)[k]? = some (i, d)) (hs : t.station.session? k = some s)
    (hreply : .reply .ok ∈ deedsOf i deeds) {last : List Act} (hrun : t.run last = some t') :
    ∃ s', t'.station.session? k = some s' ∧ s'.outbox = s.outbox ++ t.handedTo k last := by
  induction last generalizing acts deeds t s with
  | nil =>
    obtain rfl := Option.some.inj hrun
    exact ⟨s, hs, (List.append_nil _).symm⟩
  | cons act last ih =>
    obtain ⟨t₁, hstep, hlater⟩ := Option.bind_eq_some_iff.1 hrun
    have hquiet : t.replied k act = [] := by
      rcases replied_cases h.kept h.scripts hk act with hquiet | ⟨_, _, hnot⟩
      · exact hquiet
      · exact absurd hreply hnot
    obtain ⟨s₁, hs₁, houtbox⟩ := outbox_of_step hstep hs hquiet
    have hreply₁ : .reply .ok ∈ deedsOf i (deeds ++ t.deed act) := by
      rw [deedsOf_append]
      exact List.mem_append_left _ hreply
    obtain ⟨s', hs', hrest⟩ := ih (h.step hstep) (registration_append hk _) hs₁ hreply₁ hlater
    refine ⟨s', hs', ?_⟩
    rw [hrest, houtbox, List.append_assoc]
    show _ = s.outbox ++ t.collect (handed k) (act :: last)
    rw [collect, hstep]
    rfl

end Traffic

open Traffic

variable {callTimeout : Duration} {t₁ t₂ t : Traffic} {first last : List Act} {i : Nat}

/-- **Where the answer to an introduction stands.** Whoever acts in between, a device that has
introduced itself gets the errors from before, what the host handed to the session up to the answer,
the answer, and what the host hands to the session from then on. So the answer comes before all that
concerns the session exactly if the host has handed it nothing between its registration and the
answer. -/
theorem handshake_reply_place (hfirst : (Traffic.idle callTimeout).run first = some t₁)
    (hreply : t₁.deed (.perform i) = [(i, .reply .ok)])
    (hstep : t₁.step (.perform i) = some t₂) (hlast : t₂.run last = some t) :
    ∃ k d s errors,
      (registrations ((Traffic.idle callTimeout).record first))[k]? = some (i, d) ∧
      t.station.session? k = some s ∧ (∀ m ∈ errors, m = .error) ∧
      s.outbox = errors ++ (Traffic.idle callTimeout).handedTo k first ++ .ok ::
        t₂.handedTo k last := by
  have hhistory := history_of_run hfirst
  generalize (Traffic.idle callTimeout).record first = deeds at hhistory ⊢
  obtain ⟨k, d, hk, hnot, hwriter, herrors⟩ := hhistory.about_to_answer hreply
  obtain ⟨q, hq, hkey⟩ := hhistory.kept.registered k i d hk
  obtain ⟨s₁, hs₁, _, hsession, _⟩ := hhistory.kept.keyed i q k hq hkey
  have hbefore := hhistory.outbox_before_reply hk hs₁ hnot
  have hopen : s₁.writerOpen = true := hsession.writerOpen.2 hwriter
  have hreplied : t₁.replied k (.perform i) = [.ok] := by
    rw [hhistory.kept.replied_eq hk, hreply, deedsOf_self]
    rfl
  obtain ⟨s₂, hs₂, hgets⟩ := session_of_step hstep hs₁
  have hanswer : s₂.outbox = s₁.outbox ++ [.ok] := by
    rw [hgets.outbox, if_pos hopen, hreplied]
    rfl
  have hdone : .reply .ok ∈ deedsOf i (deeds ++ t₁.deed (.perform i)) := by
    rw [hreply, deedsOf_concat_self]
    exact List.mem_append_right _ List.mem_cons_self
  have hk₂ := registration_append hk (t₁.deed (.perform i))
  obtain ⟨s, hs, hafter⟩ := (hhistory.step hstep).outbox_after_reply hk₂ hs₂ hdone hlast
  refine ⟨k, d, s, repliesOf (deedsOf i deeds), hk, hs, herrors, ?_⟩
  rw [hafter, hanswer, hbefore]
  exact (List.append_cons _ _ _).symm

/-! ## A call in between -/

/-- Connections that have received some bytes and have done nothing about it yet. -/
def arrivals (received : List (Connection × List Effect)) : Traffic :=
  { Traffic.idle ⟨1000⟩ with peers := received.map fun r => ⟨r.1, none, r.2, [], none⟩ }

/-- A device introduces itself. As soon as its session is registered, a task finds it and calls. -/
def hastyCall (bytes : ByteArray) : List Act :=
  [.accept none, .receive 0 bytes] ++
    [.perform 0, .visit "cam" (.call 1 "get" [] .plain), .proceed 0, .proceed 0, .perform 0]

/-- Then the connection is about to answer the introduction. -/
theorem run_hastyCall (b : Wire.FrameBuffer) (bytes : ByteArray)
    (h : Connection.start.receive bytes
      = (⟨b, ⟨⟨.registered, 1⟩, some "cam", true⟩⟩, [.enlist "cam", .announce, .reply .ok])) :
    ∃ t₁ t₂ s, (Traffic.idle ⟨1000⟩).run (hastyCall bytes) = some t₁ ∧
      t₁.deed (.perform 0) = [(0, .reply .ok)] ∧ t₁.step (.perform 0) = some t₂ ∧
      (Traffic.idle ⟨1000⟩).handedTo 0 (hastyCall bytes) = [.call 1 "get" [] .plain] ∧
      registrations ((Traffic.idle ⟨1000⟩).record (hastyCall bytes)) = [(0, "cam")] ∧
      t₂.station.session? 0 = some s ∧ s.outbox = [.call 1 "get" [] .plain, .ok] := by
  have hstart : (Traffic.idle ⟨1000⟩).run [.accept none, .receive 0 bytes]
      = some (arrivals [Connection.start.receive bytes]) := rfl
  have hnone : (Traffic.idle ⟨1000⟩).handedTo 0 [.accept none, .receive 0 bytes] = [] := rfl
  have hrecord : (Traffic.idle ⟨1000⟩).record [.accept none, .receive 0 bytes] = [] := rfl
  rw [h] at hstart
  unfold hastyCall
  rw [run_append, handedTo_append hstart, record_append hstart, hstart, hnone, hrecord]
  exact ⟨_, _, _, rfl, rfl, rfl, rfl, rfl, rfl, rfl⟩

/-- The place of the answer in that run: there is one message of the host before it. -/
theorem handshake_reply_place_hasty :
    ∃ bytes t₁ t₂ k s errors, (Traffic.idle ⟨1000⟩).run (hastyCall bytes) = some t₁ ∧
      t₁.deed (.perform 0) = [(0, .reply .ok)] ∧ t₁.step (.perform 0) = some t₂ ∧
      t₂.run [] = some t₂ ∧
      (registrations ((Traffic.idle ⟨1000⟩).record (hastyCall bytes)))[k]? = some (0, "cam") ∧
      t₂.station.session? k = some s ∧ (∀ m ∈ errors, m = .error) ∧
      s.outbox = errors ++ [.call 1 "get" [] .plain] ++ .ok :: t₂.handedTo k [] := by
  obtain ⟨b, hreceive⟩ := receive_introduction "cam" (by decide)
  generalize (encodeFrame (.register "cam")).toUTF8 = bytes at hreceive
  obtain ⟨t₁, t₂, _, hrun, hreply, hstep, hhanded, hregistered, _⟩ := run_hastyCall b bytes hreceive
  have hnothing : t₂.run [] = some t₂ := rfl
  obtain ⟨k, d, s, errors, hk, hs, herrors, houtbox⟩ :=
    handshake_reply_place hrun hreply hstep hnothing
  obtain ⟨rfl, rfl⟩ : k = 0 ∧ d = "cam" := by
    rw [hregistered] at hk
    cases k with
    | zero => exact ⟨rfl, (congrArg Prod.snd (Option.some.inj hk)).symm⟩
    | succ k => exact absurd hk (by simp)
  rw [hhanded] at houtbox
  exact ⟨bytes, t₁, t₂, 0, s, errors, hrun, hreply, hstep, hnothing, hk, hs, herrors, houtbox⟩

/-- A device may get a call before the answer to its introduction. -/
theorem call_before_handshake_reply :
    ∃ t s, (Traffic.idle ⟨1000⟩).run
        (hastyCall (encodeFrame (.register "cam")).toUTF8 ++ [.perform 0]) = some t ∧
      t.station.session? 0 = some s ∧ s.outbox = [.call 1 "get" [] .plain, .ok] := by
  obtain ⟨b, hreceive⟩ := receive_introduction "cam" (by decide)
  obtain ⟨t₁, t₂, s, hrun, _, hstep, _, _, hs, houtbox⟩ := run_hastyCall b _ hreceive
  refine ⟨t₂, s, ?_, hs, houtbox⟩
  rw [run_append, hrun, Option.bind_some, run_singleton, hstep]

end KeywordRunner.Server
