import KeywordRunner.Proofs.Server.Service

/-!
# Proofs.Server.Ownership — whose session a device id stands for

Any number of connections may register the same device id, and each takes its own session out of the
directory when it ends. As long as no shutdown empties the directory, an id stands for the session
that was registered last under it, until the connection of that very session takes it out.

* **`Traffic.Owned`** — the invariant.
* **`directory_owned`** — the theorem.
-/

namespace KeywordRunner.Server

open Wire (encodeFrame)

namespace Traffic

variable {callTimeout : Duration} {t t' : Traffic} {act : Act} {acts : List Act}
  {deeds : List (Nat × Effect)} {i j : Nat} {p : Peer} {d : String} {k : SessionKey}

/-! ## The latest registration -/

/-- The latest registration of a device id: the connection that made it, and its number. -/
structure Latest (deeds : List (Nat × Effect)) (d : String) (k : SessionKey) (i : Nat) : Prop where
  made : (registrations deeds)[k]? = some (i, d)
  last : ∀ (k' : SessionKey) (j : Nat), k < k' → (registrations deeds)[k']? ≠ some (j, d)

/-- Every id stands for the session that was registered last, and for none once its connection has
taken it out. -/
def Owned (deeds : List (Nat × Effect)) (st : Station) : Prop :=
  ∀ d k, st.lookup? d = some k ↔ ∃ i, Latest deeds d k i ∧ .unlist ∉ deedsOf i deeds

theorem Latest.congr {more : List (Nat × Effect)} (h : registrations more = registrations deeds) :
    Latest more d k i ↔ Latest deeds d k i := by
  constructor
  · rintro ⟨hmade, hlast⟩
    exact ⟨h ▸ hmade, h ▸ hlast⟩
  · rintro ⟨hmade, hlast⟩
    exact ⟨h ▸ hmade, h ▸ hlast⟩

theorem unlist_mem_concat {e : Effect} :
    .unlist ∈ deedsOf j (deeds ++ [(i, e)]) ↔
      .unlist ∈ deedsOf j deeds ∨ (j = i ∧ e = .unlist) := by
  rw [deedsOf_append, List.mem_append]
  by_cases hji : j = i
  · subst hji
    rw [deedsOf_self, List.mem_singleton, eq_comm, and_iff_right rfl]
  · have hnil : .unlist ∈ deedsOf j [(i, e)] ↔ False := by
      rw [deedsOf_of_ne (Ne.symm hji)]
      exact iff_of_false List.not_mem_nil id
    rw [hnil, iff_false_intro hji, false_and]

/-- A later registration of an id is the latest one, and no other id is concerned. -/
theorem latest_concat {d' : String} :
    Latest (deeds ++ [(i, .enlist d')]) d k j ↔
      if d = d' then k = (registrations deeds).length ∧ j = i else Latest deeds d k j := by
  have hregistrations : registrations (deeds ++ [(i, .enlist d')])
      = registrations deeds ++ [(i, d')] := registrations_append _ _
  have hlast : (registrations deeds ++ [(i, d')])[(registrations deeds).length]? = some (i, d') :=
    List.getElem?_concat_length
  have hlt : ∀ {k : SessionKey} {x : Nat × String}, (registrations deeds)[k]? = some x →
      k < (registrations deeds).length := fun hk => (List.getElem?_eq_some_iff.1 hk).1
  have hold : ∀ {k : SessionKey} {x : Nat × String}, (registrations deeds)[k]? = some x →
      (registrations deeds ++ [(i, d')])[k]? = some x :=
    fun hk => getElem?_append_of_some hk _
  by_cases hd : d = d'
  · rw [if_pos hd]
    subst hd
    constructor
    · rintro ⟨hmade, hnone⟩
      rw [hregistrations] at hmade hnone
      rcases getElem?_append_cases hmade with hbefore | ⟨hk, hnew⟩
      · exact absurd hlast (hnone _ i (hlt hbefore))
      · exact ⟨hk, congrArg Prod.fst hnew⟩
    · rintro ⟨rfl, rfl⟩
      refine ⟨hregistrations ▸ hlast, fun k' j' hlater hk' => ?_⟩
      rw [hregistrations] at hk'
      rcases getElem?_append_cases hk' with hbefore | ⟨hk, _⟩
      · exact Nat.lt_asymm hlater (hlt hbefore)
      · exact Nat.ne_of_gt hlater hk
  · rw [if_neg hd]
    constructor
    · rintro ⟨hmade, hnone⟩
      rw [hregistrations] at hmade hnone
      rcases getElem?_append_cases hmade with hbefore | ⟨_, hnew⟩
      · exact ⟨hbefore, fun k' j' hlater hk' => hnone k' j' hlater (hold hk')⟩
      · exact absurd (congrArg Prod.snd hnew) hd
    · rintro ⟨hmade, hnone⟩
      refine ⟨hregistrations ▸ hold hmade, fun k' j' hlater hk' => ?_⟩
      rw [hregistrations] at hk'
      rcases getElem?_append_cases hk' with hbefore | ⟨_, hnew⟩
      · exact hnone k' j' hlater hbefore
      · exact hd (congrArg Prod.snd hnew)

/-! ## Steps -/

/-- A session belongs to the connection that registered it. -/
theorem Kept.made_by (h : Kept deeds t) (hget : t.peers[i]? = some p)
    (hmade : (registrations deeds)[k]? = some (j, d)) : j = i ↔ p.key = some k := by
  constructor
  · rintro rfl
    obtain ⟨q, hq, hkey⟩ := h.registered k j d hmade
    obtain rfl : p = q := Option.some.inj (hget.symm.trans hq)
    exact hkey
  · intro hkey
    obtain ⟨s, _, hs, _⟩ := h.keyed i p k hget hkey
    exact congrArg Prod.fst (Option.some.inj (hmade.symm.trans hs))

/-- A connection takes nothing out of the directory but its own session. -/
theorem Kept.lookup?_unlist (h : Kept deeds t) {later : List Effect} (hget : t.peers[i]? = some p) :
    (Peer.perform { p with pending := later } callTimeout t.station .unlist).1.lookup? d = some k ↔
      t.station.lookup? d = some k ∧ p.key ≠ some k := by
  rcases Option.eq_none_or_eq_some p.key with hkey | ⟨own, hkey⟩
  · unfold Peer.perform
    simp [hkey]
  · have hperform : (Peer.perform { p with pending := later } callTimeout t.station .unlist).1
        = (t.station.removeSession own).1 := by
      unfold Peer.perform
      simp only [hkey]
    obtain ⟨s, hs, _⟩ := h.keyed i p own hget hkey
    rw [hperform, Station.lookup?_removeSession hs, hkey]
    split
    · next hown =>
      obtain ⟨hlookup, rfl⟩ := hown
      refine iff_of_false (by simp) fun hboth => hboth.2 ?_
      exact hlookup.symm.trans hboth.1
    · next hnot =>
      -- a session is found under its own id only, and there it was not found
      refine (and_iff_left_of_imp fun hd heq => hnot ?_).symm
      obtain rfl : own = k := Option.some.inj heq
      obtain ⟨r, hr, hdevice, _⟩ := h.directory d own hd
      obtain rfl : s = r := Option.some.inj (hs.symm.trans hr)
      exact ⟨hdevice ▸ hd, hdevice.symm⟩

theorem lookup?_perform {e : Effect} (p : Peer) (st : Station)
    (henlist : ∀ deviceId, e ≠ .enlist deviceId) (hunlist : e ≠ .unlist) :
    (p.perform callTimeout st e).1.lookup? d = st.lookup? d := by
  obtain ⟨connection, address, pending, replies, key⟩ := p
  cases e with
  | enlist deviceId => exact absurd rfl (henlist deviceId)
  | unlist => exact absurd rfl hunlist
  | _ => cases key <;> rfl

theorem Owned.enlist (h : Owned deeds t.station) (hkept : Kept deeds t) {s : Session}
    (hfresh : .unlist ∉ deedsOf i deeds) :
    Owned (deeds ++ [(i, .enlist s.deviceId)]) (t.station.enlist s) := by
  intro d k
  rw [Station.lookup?_enlist]
  simp only [latest_concat, unlist_mem_concat, reduceCtorEq, and_false, or_false]
  by_cases hd : d = s.deviceId
  · rw [if_pos hd, hkept.count]
    simp only [if_pos hd]
    constructor
    · intro hk
      exact ⟨i, ⟨(Option.some.inj hk).symm, rfl⟩, hfresh⟩
    · rintro ⟨_, ⟨rfl, rfl⟩, _⟩
      rfl
  · simp only [if_neg hd]
    exact h d k

theorem Owned.unlist (h : Owned deeds t.station) (hkept : Kept deeds t) {later : List Effect}
    (hget : t.peers[i]? = some p) :
    Owned (deeds ++ [(i, .unlist)])
      (Peer.perform { p with pending := later } callTimeout t.station .unlist).1 := by
  intro d k
  have hregistrations : registrations (deeds ++ [(i, .unlist)]) = registrations deeds :=
    registrations_concat_of_ne (by simp)
  rw [hkept.lookup?_unlist hget, h d k]
  simp only [Latest.congr hregistrations, unlist_mem_concat, and_true, not_or]
  constructor
  · rintro ⟨⟨j, hj, hnot⟩, hkey⟩
    exact ⟨j, hj, hnot, fun hji => hkey ((hkept.made_by hget hj.made).1 hji)⟩
  · rintro ⟨j, hj, hnot, hji⟩
    exact ⟨⟨j, hj, hnot⟩, fun hkey => hji ((hkept.made_by hget hj.made).2 hkey)⟩

theorem Owned.perform (h : Owned deeds t.station) (hkept : Kept deeds t)
    (hscripts : InStep acts deeds t) {e : Effect} {later : List Effect}
    (hget : t.peers[i]? = some p) (hpending : p.pending = e :: later) :
    Owned (deeds ++ [(i, e)])
      (Peer.perform { p with pending := later } t.callTimeout t.station e).1 := by
  by_cases henlist : ∃ deviceId, e = .enlist deviceId
  · obtain ⟨deviceId, rfl⟩ := henlist
    obtain ⟨more, ms, hms⟩ := hscripts.conversation hget
    rw [hpending, List.cons_append] at hms
    -- it has done nothing but reply before, so its removal is still to come
    refine h.enlist hkept
      (s := { Session.connect deviceId p.address t.callTimeout with outbox := p.replies })
      fun hmem => ?_
    obtain ⟨m, hm⟩ := reply_of_mem_before_enlist hms _ hmem
    exact absurd hm (by simp)
  · have hne : ∀ deviceId, e ≠ .enlist deviceId := fun deviceId heq => henlist ⟨deviceId, heq⟩
    by_cases hunlist : e = .unlist
    · subst hunlist
      exact h.unlist hkept hget
    · intro d k
      have hregistrations : registrations (deeds ++ [(i, e)]) = registrations deeds :=
        registrations_concat_of_ne hne
      rw [lookup?_perform _ _ hne hunlist, h d k]
      simp only [Latest.congr hregistrations, unlist_mem_concat, hunlist, and_false, or_false]

/-- Without a shutdown every step keeps the directory in the right hands. -/
theorem Owned.step (h : Owned deeds t.station) (hkept : Kept deeds t)
    (hscripts : InStep acts deeds t) (hcalm : t.closings = []) (hsteps : t.Steps act t') :
    Owned (deeds ++ t.deed act) t'.station := by
  cases hsteps with
  | perform hget hpending =>
    rw [deed_perform hget hpending]
    exact h.perform hkept hscripts hget hpending
  | close hget _ =>
    rw [hcalm] at hget
    exact absurd hget (by simp)
  | accept address =>
    rw [deed_of_ne (by simp), List.append_nil]
    exact h
  | receive bytes _ _ _ =>
    rw [deed_of_ne (by simp), List.append_nil]
    exact h
  | finish _ _ _ =>
    rw [deed_of_ne (by simp), List.append_nil]
    exact h
  | shutdown =>
    rw [deed_of_ne (by simp), List.append_nil]
    exact h
  | aside haside =>
    rw [deed_of_isAside haside, List.append_nil]
    exact h
  | post =>
    rw [deed_of_ne (by simp), List.append_nil]
    exact h

theorem closings_of_step (hsteps : t.Steps act t') (hne : act ≠ .shutdown) (h : t.closings = []) :
    t'.closings = [] := by
  cases hsteps with
  | shutdown => exact absurd rfl hne
  | close hget _ =>
    rw [h] at hget
    exact absurd hget (by simp)
  | _ => exact h

theorem History.owned (h : History callTimeout acts deeds t) (hcalm : .shutdown ∉ acts) :
    Owned deeds t.station ∧ t.closings = [] := by
  induction h with
  | idle =>
    refine ⟨fun d k => iff_of_false ?_ ?_, rfl⟩
    · simp [Traffic.idle, Station.lookup?, Station.empty]
    · rintro ⟨i, hi, _⟩
      exact absurd hi.made (by simp [registrations])
  | step before hstep ih =>
    rw [List.mem_append, List.mem_singleton, not_or] at hcalm
    obtain ⟨howned, hclosings⟩ := ih hcalm.1
    have hsteps := steps_of_step hstep
    exact ⟨howned.step before.kept before.scripts hclosings hsteps,
      closings_of_step hsteps (Ne.symm hcalm.2) hclosings⟩

end Traffic

open Traffic

variable {callTimeout : Duration} {t : Traffic} {acts : List Act}

/-- **Whose session a device id stands for.** As long as no shutdown begins, it is the session that
was registered last under the id, until that session's own connection takes it out. A connection
that takes out its session changes nothing for the sessions of others. What is registered is under
its own id and not closed, whether there are shutdowns or not; and the registered ids are listed in
order, each once. -/
theorem directory_owned (hrun : (Traffic.idle callTimeout).run acts = some t) :
    (.shutdown ∉ acts → ∀ d k, t.station.lookup? d = some k ↔
      ∃ i, Latest ((Traffic.idle callTimeout).record acts) d k i ∧
        .unlist ∉ deedsOf i ((Traffic.idle callTimeout).record acts)) ∧
    (∀ i p t', t.peers[i]? = some p → t.deed (.perform i) = [(i, .unlist)] →
      t.step (.perform i) = some t' →
      ∀ d k, p.key ≠ some k → (t'.station.lookup? d = some k ↔ t.station.lookup? d = some k)) ∧
    (∀ d k, t.station.lookup? d = some k →
      ∃ s, t.station.session? k = some s ∧ s.deviceId = d ∧ s.closed = false) ∧
    t.station.deviceIds.Pairwise (· < ·) ∧
    ∀ d, d ∈ t.station.deviceIds ↔ ∃ k, t.station.lookup? d = some k := by
  have hhistory := history_of_run hrun
  refine ⟨fun hcalm => (hhistory.owned hcalm).1, ?_, hhistory.kept.directory,
    Table.pairwise_keys _, fun d => Table.mem_keys⟩
  intro i p t' hget hdeed hstep d k hother
  cases steps_of_step hstep with
  | perform hget' hpending =>
    obtain rfl := Option.some.inj (hget.symm.trans hget')
    rw [deed_perform hget hpending, List.cons.injEq, Prod.mk.injEq] at hdeed
    obtain rfl := hdeed.1.2
    exact (hhistory.kept.lookup?_unlist hget).trans (and_iff_left hother)
  | aside haside => exact haside.elim

/-! ## Two connections of one device -/

/-- Two connections that have received the same bytes and have done nothing about it yet. -/
def rivals (c : Connection) (es : List Effect) : Traffic :=
  { Traffic.idle ⟨1000⟩ with peers := [⟨c, none, es, [], none⟩, ⟨c, none, es, [], none⟩] }

/-- Two connections that introduce themselves alike, the first one somewhat earlier; it is the first
one that ends. -/
def rivalry (bytes : ByteArray) : List Act :=
  [.accept none, .accept none, .receive 0 bytes, .receive 1 bytes] ++
    [.perform 0, .perform 0, .perform 0, .perform 1, .perform 1, .perform 1, .finish 0]

/-- Then the first connection is about to take out its session, which is the older one. -/
theorem run_rivals (b : Wire.FrameBuffer) (bytes : ByteArray)
    (h : Connection.start.receive bytes
      = (⟨b, ⟨⟨.registered, 1⟩, some "cam", true⟩⟩, [.enlist "cam", .announce, .reply .ok])) :
    ∃ t t' p, (Traffic.idle ⟨1000⟩).run (rivalry bytes) = some t ∧
      (Traffic.idle ⟨1000⟩).record (rivalry bytes)
        = [(0, .enlist "cam"), (0, .announce), (0, .reply .ok), (1, .enlist "cam"), (1, .announce),
            (1, .reply .ok)] ∧
      t.peers[0]? = some p ∧ p.key = some 0 ∧ t.deed (.perform 0) = [(0, .unlist)] ∧
      t.step (.perform 0) = some t' := by
  have hstart : (Traffic.idle ⟨1000⟩).run
      [.accept none, .accept none, .receive 0 bytes, .receive 1 bytes]
        = some (rivals (Connection.start.receive bytes).1 (Connection.start.receive bytes).2) := rfl
  have hrecord : (Traffic.idle ⟨1000⟩).record
      [.accept none, .accept none, .receive 0 bytes, .receive 1 bytes] = [] := rfl
  rw [h] at hstart
  unfold rivalry
  rw [run_append, record_append hstart, hstart, hrecord]
  exact ⟨_, _, _, rfl, rfl, rfl, rfl, rfl, rfl⟩

/-- The newer session stays registered when the older connection takes out its own. -/
theorem directory_owned_rivals :
    ∃ t t' s, (Traffic.idle ⟨1000⟩).run (rivalry (encodeFrame (.register "cam")).toUTF8) = some t ∧
      t.deed (.perform 0) = [(0, .unlist)] ∧ t.step (.perform 0) = some t' ∧
      t.station.lookup? "cam" = some 1 ∧ t'.station.lookup? "cam" = some 1 ∧
      t.station.session? 1 = some s ∧ s.deviceId = "cam" ∧ s.closed = false := by
  obtain ⟨b, hreceive⟩ := receive_introduction "cam" (by decide)
  generalize (encodeFrame (.register "cam")).toUTF8 = bytes at hreceive ⊢
  obtain ⟨t, t', p, hrun, hrecord, hget, hkey, hdeed, hstep⟩ := run_rivals b bytes hreceive
  obtain ⟨howned, hothers, hsessions, _⟩ := directory_owned hrun
  have hlatest : Latest ((Traffic.idle ⟨1000⟩).record (rivalry bytes)) "cam" 1 1 := by
    rw [hrecord]
    refine ⟨rfl, fun k' j hk' hj => ?_⟩
    have hnone : [(0, "cam"), (1, "cam")][k']? = none := List.getElem?_eq_none hk'
    exact absurd (hj.symm.trans hnone) (by simp)
  have hbefore : t.station.lookup? "cam" = some 1 := by
    refine (howned (by simp [rivalry]) "cam" 1).2 ⟨1, hlatest, ?_⟩
    rw [hrecord]
    simp [deedsOf]
  have hafter := (hothers 0 p t' hget hdeed hstep "cam" 1 (by simp [hkey])).2 hbefore
  obtain ⟨s, hs, hdevice, hopen⟩ := hsessions "cam" 1 hbefore
  exact ⟨t, t', s, hrun, hdeed, hstep, hbefore, hafter, hs, hdevice, hopen⟩

end KeywordRunner.Server
