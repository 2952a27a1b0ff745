import KeywordRunner.Proofs.Server.Steps

/-!
# Proofs.Server.Keeping — what becomes of sessions and of the directory

A session is changed by the connection that made it, by tasks that send it messages and by
shutdowns. The latter only ever add to its outbox or mark it closed (`Session.Endures`), so
everything else about a session is told by what its connection did (`SessionKept`). The keys of
sessions number the registrations, and what is registered is open, because it is unregistered
before it is marked closed.

* **`Kept`** — the invariant.
* **`History.kept`** — it holds in every run.
-/

namespace KeywordRunner

open Wire (Message)

/-! ## What others do to a session -/

/-- A session at a later time, as far as others than its own connection are concerned. -/
structure Session.Endures (s s' : Session) : Prop where
  deviceId : s'.deviceId = s.deviceId
  inbox : s'.inbox = s.inbox
  inboxOpen : s'.inboxOpen = s.inboxOpen
  writerOpen : s'.writerOpen = s.writerOpen
  closed : s.closed = true → s'.closed = true
  outbox : s.outbox.Sublist s'.outbox

namespace Session

theorem Endures.refl (s : Session) : s.Endures s := ⟨rfl, rfl, rfl, rfl, id, .refl _⟩

theorem endures_post (s : Session) (m : Message) : s.Endures ((s.post m).getD s) := by
  unfold post
  split
  · exact ⟨rfl, rfl, rfl, rfl, id, List.sublist_append_left _ _⟩
  · exact .refl s

theorem closed_post (s : Session) (m : Message) : ((s.post m).getD s).closed = s.closed := by
  unfold post
  split <;> rfl

theorem endures_close (s : Session) : s.Endures s.close.1 := by
  unfold close post
  split
  · next s' h =>
    split at h
    · cases h
      exact ⟨rfl, rfl, rfl, rfl, id, List.sublist_append_left _ _⟩
    · exact absurd h (by simp)
  · exact .refl s

theorem closed_close (s : Session) : s.close.1.closed = s.closed := by
  unfold close post
  split
  · next s' h =>
    split at h
    · cases h
      rfl
    · exact absurd h (by simp)
  · rfl

theorem deviceId_deliver (s : Session) (m : Message) :
    (s.deliver (.message m)).deviceId = s.deviceId := by
  unfold deliver
  dsimp only
  split <;> rfl

theorem closed_deliver (s : Session) (m : Message) :
    (s.deliver (.message m)).closed = s.closed := by
  unfold deliver
  dsimp only
  split <;> rfl

theorem endures_markClosed (s : Session) : s.Endures s.markClosed :=
  ⟨rfl, rfl, rfl, rfl, fun _ => rfl, .refl _⟩

end Session

namespace Server

/-! ## What a connection does to its session -/

def repliesOf (es : List Effect) : List Message :=
  es.filterMap fun
    | .reply m => some m
    | _ => none

def deliveriesOf (es : List Effect) : List Message :=
  es.filterMap fun
    | .deliver m => some m
    | _ => none

theorem repliesOf_append (es fs : List Effect) :
    repliesOf (es ++ fs) = repliesOf es ++ repliesOf fs := List.filterMap_append

theorem mem_repliesOf {es : List Effect} {m : Message} : m ∈ repliesOf es ↔ .reply m ∈ es := by
  constructor
  · intro h
    obtain ⟨e, he, heq⟩ := List.mem_filterMap.1 h
    cases e with
    | reply m' =>
      obtain rfl := Option.some.inj heq
      exact he
    | _ => exact absurd heq (by simp)
  · intro h
    exact List.mem_filterMap.2 ⟨_, h, rfl⟩

theorem deliveriesOf_append (es fs : List Effect) :
    deliveriesOf (es ++ fs) = deliveriesOf es ++ deliveriesOf fs := List.filterMap_append

/-- A session whose connection has done all this. -/
structure SessionKept (s : Session) (es : List Effect) : Prop where
  inbox : s.inbox = deliveriesOf es
  inboxOpen : s.inboxOpen = true ↔ .hangUp ∉ es
  writerOpen : s.writerOpen = true ↔ .stopWriter ∉ es
  closed : .retire ∈ es → s.closed = true
  outbox : (repliesOf es).Sublist s.outbox

namespace SessionKept

variable {s s' : Session} {es : List Effect}

theorem mono (h : SessionKept s es) (he : s.Endures s') : SessionKept s' es where
  inbox := he.inbox.trans h.inbox
  inboxOpen := by rw [he.inboxOpen]; exact h.inboxOpen
  writerOpen := by rw [he.writerOpen]; exact h.writerOpen
  closed hmem := he.closed (h.closed hmem)
  outbox := h.outbox.trans he.outbox

theorem not_mem_concat {a e : Effect} : a ∉ es ++ [e] ↔ a ∉ es ∧ e ≠ a := by
  rw [List.mem_append, List.mem_singleton, not_or, ne_comm]

theorem concat (h : SessionKept s es) {e : Effect}
    (hinbox : s'.inbox = s.inbox ++ deliveriesOf [e])
    (hopen : s'.inboxOpen = true ↔ s.inboxOpen = true ∧ e ≠ .hangUp)
    (hwriter : s'.writerOpen = true ↔ s.writerOpen = true ∧ e ≠ .stopWriter)
    (hclosed : s.closed = true ∨ e = .retire → s'.closed = true)
    (houtbox : s'.outbox = s.outbox ++ repliesOf [e]) : SessionKept s' (es ++ [e]) where
  inbox := by rw [hinbox, h.inbox, deliveriesOf_append]
  inboxOpen := by rw [hopen, h.inboxOpen, not_mem_concat]
  writerOpen := by rw [hwriter, h.writerOpen, not_mem_concat]
  closed hmem := by
    rcases List.mem_append.1 hmem with hbefore | hlast
    · exact hclosed (Or.inl (h.closed hbefore))
    · exact hclosed (Or.inr (List.mem_singleton.1 hlast).symm)
  outbox := by
    rw [houtbox, repliesOf_append]
    exact h.outbox.append (.refl _)

theorem skip (h : SessionKept s es) {e : Effect} (hinbox : deliveriesOf [e] = [])
    (houtbox : repliesOf [e] = []) (hopen : e ≠ .hangUp) (hwriter : e ≠ .stopWriter)
    (hclosed : e ≠ .retire) : SessionKept s (es ++ [e]) := by
  refine h.concat ?_ (iff_of_eq (by simp [hopen])) (iff_of_eq (by simp [hwriter]))
    (fun hor => hor.elim id fun heq => absurd heq hclosed) ?_
  · rw [hinbox, List.append_nil]
  · rw [houtbox, List.append_nil]

theorem reply (h : SessionKept s es) (m : Message) (hopen : .stopWriter ∉ es) :
    SessionKept ((s.post m).getD s) (es ++ [.reply m]) := by
  have hpost : s.post m = some { s with outbox := s.outbox ++ [m] } :=
    if_pos (h.writerOpen.2 hopen)
  rw [hpost, Option.getD_some]
  exact h.concat (List.append_nil _).symm (by simp) (by simp) (by simp) rfl

theorem deliver (h : SessionKept s es) (m : Message) (hopen : .hangUp ∉ es) :
    SessionKept (s.deliver (.message m)) (es ++ [.deliver m]) := by
  have hdeliver : s.deliver (.message m) = { s with inbox := s.inbox ++ [m] } :=
    if_pos (h.inboxOpen.2 hopen)
  rw [hdeliver]
  exact h.concat rfl (by simp) (by simp) (by simp) (List.append_nil _).symm

theorem retire (h : SessionKept s es) : SessionKept s.markClosed (es ++ [.retire]) :=
  h.concat (List.append_nil _).symm (by simp [Session.markClosed]) (by simp [Session.markClosed])
    (fun _ => rfl) (List.append_nil _).symm

theorem hangUp (h : SessionKept s es) : SessionKept s.hangUp (es ++ [.hangUp]) :=
  h.concat (List.append_nil _).symm (by simp [Session.hangUp]) (by simp [Session.hangUp])
    (by simp [Session.hangUp]) (List.append_nil _).symm

theorem stopWriter (h : SessionKept s es) : SessionKept s.dropWriter (es ++ [.stopWriter]) :=
  h.concat (List.append_nil _).symm (by simp [Session.dropWriter]) (by simp [Session.dropWriter])
    (by simp [Session.dropWriter]) (List.append_nil _).symm

/-- A session that has just been made takes over the replies from before. -/
theorem enlist (deviceId : String) (peer : Option SocketAddress) (timeout : Duration)
    (h : ∀ e ∈ es, ∃ m, e = .reply m) :
    SessionKept { Session.connect deviceId peer timeout with outbox := repliesOf es }
      (es ++ [.enlist deviceId]) := by
  have hnot : ∀ e, (∀ m, e ≠ .reply m) → e ∉ es := fun e hne hmem => by
    obtain ⟨m, hm⟩ := h e hmem
    exact hne m hm
  have hdeliveries : deliveriesOf es = [] := by
    refine List.filterMap_eq_nil_iff.2 fun e he => ?_
    obtain ⟨m, rfl⟩ := h e he
    rfl
  have hbefore : SessionKept
      { Session.connect deviceId peer timeout with outbox := repliesOf es } es :=
    ⟨hdeliveries.symm, iff_of_true rfl (hnot .hangUp (by simp)),
      iff_of_true rfl (hnot .stopWriter (by simp)),
      fun hmem => absurd hmem (hnot .retire (by simp)), .refl _⟩
  exact hbefore.skip rfl rfl (by simp) (by simp) (by simp)

end SessionKept

/-! ## Stations -/

namespace Station

variable {st : Station} {key k : SessionKey} {f : Session → Session} {s : Session}

theorem session?_lt (h : st.session? k = some s) : k < st.sessions.length :=
  (List.getElem?_eq_some_iff.1 h).1

theorem session?_update_self (h : st.session? key = some s) :
    (st.update key f).session? key = some (f s) := by
  unfold session? update at *
  rw [List.getElem?_modify_eq, h]
  rfl

theorem session?_update_of_ne (h : key ≠ k) : (st.update key f).session? k = st.session? k := by
  unfold session? update
  exact List.getElem?_modify_ne f _ h

theorem length_update : (st.update key f).sessions.length = st.sessions.length :=
  List.length_modify ..

/-- A station at a later time, as far as others than connections are concerned: what is still
registered has not been closed. -/
structure Endures (st st' : Station) : Prop where
  session : ∀ k s, st.session? k = some s → ∃ s', st'.session? k = some s' ∧ s.Endures s' ∧
    (s'.closed = true → s.closed = true ∨ ∀ d, st'.lookup? d ≠ some k)
  count : st'.sessions.length = st.sessions.length
  lookup : ∀ d k, st'.lookup? d = some k → st.lookup? d = some k

theorem endures_update (st : Station) (key : SessionKey) (hf : ∀ s, Session.Endures s (f s))
    (hclosed : (∀ s : Session, (f s).closed = s.closed) ∨ ∀ d, st.lookup? d ≠ some key) :
    st.Endures (st.update key f) where
  session k s hs := by
    by_cases hk : key = k
    · subst hk
      refine ⟨f s, session?_update_self hs, hf s, fun h => ?_⟩
      rcases hclosed with hsame | hnot
      · exact Or.inl ((hsame s).symm.trans h)
      · exact Or.inr hnot
    · exact ⟨s, (session?_update_of_ne hk).trans hs, .refl s, Or.inl⟩
  count := length_update
  lookup _ _ h := h

theorem endures_clear (st : Station) : st.Endures st.clear where
  session _ s hs := ⟨s, hs, .refl s, Or.inl⟩
  count := rfl
  lookup _ _ h := absurd h (by simp [clear, lookup?])

theorem sessions_removeSession (st : Station) (key : SessionKey) :
    (st.removeSession key).1.sessions = st.sessions := by
  unfold removeSession
  split
  · rfl
  · split <;> rfl

/-- A session is taken out of the directory where it is still the registered one. -/
theorem lookup?_removeSession (h : st.session? key = some s) (d : String) :
    (st.removeSession key).1.lookup? d =
      if st.lookup? s.deviceId = some key ∧ d = s.deviceId then none else st.lookup? d := by
  have hremove : st.removeSession key = if st.lookup? s.deviceId = some key then
      ({ st with directory := st.directory.erase s.deviceId }, true) else (st, false) := by
    unfold removeSession
    rw [h]
    rfl
  rw [hremove]
  by_cases hregistered : st.lookup? s.deviceId = some key
  · rw [if_pos hregistered]
    refine (Table.get?_erase st.directory s.deviceId d).trans ?_
    by_cases hd : d = s.deviceId
    · rw [if_pos hd, if_pos ⟨hregistered, hd⟩]
    · rw [if_neg hd, if_neg fun hboth => hd hboth.2]
      rfl
  · rw [if_neg hregistered, if_neg fun hboth => hregistered hboth.1]

/-- A station with one more session, which is registered. -/
def enlist (st : Station) (s : Session) : Station := ((st.add s).1.register (st.add s).2).1

theorem enlist_eq (st : Station) (s : Session) :
    st.enlist s = ⟨st.sessions ++ [s], st.directory.insert s.deviceId st.sessions.length⟩ := by
  have hlast : (st.add s).1.session? (st.add s).2 = some s :=
    List.getElem?_concat_length
  unfold enlist register
  rw [hlast]
  rfl

theorem length_enlist (st : Station) (s : Session) :
    (st.enlist s).sessions.length = st.sessions.length + 1 := by
  rw [enlist_eq]
  exact List.length_append

theorem session?_enlist_of_lt (h : k < st.sessions.length) (s : Session) :
    (st.enlist s).session? k = st.session? k := by
  rw [enlist_eq]
  exact List.getElem?_append_left h

theorem session?_enlist_last (st : Station) (s : Session) :
    (st.enlist s).session? st.sessions.length = some s := by
  rw [enlist_eq]
  exact List.getElem?_concat_length

theorem lookup?_enlist (st : Station) (s : Session) (d : String) :
    (st.enlist s).lookup? d
      = if d = s.deviceId then some st.sessions.length else st.lookup? d := by
  rw [enlist_eq]
  exact Table.get?_insert st.directory s.deviceId d _

/-- The new key is no old session's, so what is found under an old key was found before. -/
theorem lookup?_before_enlist {d : String} (hd : (st.enlist s).lookup? d = some k)
    (hlt : k < st.sessions.length) : st.lookup? d = some k := by
  rw [lookup?_enlist] at hd
  split at hd
  · exact absurd (Option.some.inj hd) (Nat.ne_of_gt hlt)
  · exact hd

end Station

/-- The sessions that a shutdown has still to do with. -/
def Closing.keys : Closing → List SessionKey
  | .collecting => []
  | .clearing keys | .killing keys | .marking keys => keys

/-- Whether a shutdown has emptied the directory. -/
def Closing.hasCleared : Closing → Prop
  | .collecting | .clearing _ => False
  | .killing _ | .marking _ => True

namespace Traffic

/-- The registrations, in order: which connection registered which device. -/
def registrations (deeds : List (Nat × Effect)) : List (Nat × String) :=
  deeds.filterMap fun
    | (i, .enlist deviceId) => some (i, deviceId)
    | _ => none

theorem registrations_append (deeds more : List (Nat × Effect)) :
    registrations (deeds ++ more) = registrations deeds ++ registrations more :=
  List.filterMap_append

/-- A registration stays on record. -/
theorem registration_append {deeds : List (Nat × Effect)} {k : SessionKey} {x : Nat × String}
    (h : (registrations deeds)[k]? = some x) (more : List (Nat × Effect)) :
    (registrations (deeds ++ more))[k]? = some x := by
  rw [registrations_append]
  exact getElem?_append_of_some h _

theorem registrations_concat_of_ne {deeds : List (Nat × Effect)} {i : Nat} {e : Effect}
    (h : ∀ deviceId, e ≠ .enlist deviceId) :
    registrations (deeds ++ [(i, e)]) = registrations deeds := by
  have hnone : registrations [(i, e)] = [] := by
    cases e with
    | enlist deviceId => exact absurd rfl (h deviceId)
    | _ => rfl
  rw [registrations_append, hnone, List.append_nil]

/-- Sessions and directory are what the history tells. Every registration has made the session whose
key is its number, and that session belongs to the connection that registered it. -/
structure Kept (deeds : List (Nat × Effect)) (t : Traffic) : Prop where
  anonymous : ∀ (i : Nat) (p : Peer), t.peers[i]? = some p → p.key = none →
    p.replies = repliesOf (deedsOf i deeds)
  keyed : ∀ (i : Nat) (p : Peer) (k : SessionKey), t.peers[i]? = some p → p.key = some k →
    ∃ s, t.station.session? k = some s ∧ (registrations deeds)[k]? = some (i, s.deviceId) ∧
      SessionKept s (deedsOf i deeds) ∧
      (.unlist ∈ deedsOf i deeds → ∀ d, t.station.lookup? d ≠ some k)
  registered : ∀ (k : SessionKey) (i : Nat) (d : String), (registrations deeds)[k]? = some (i, d) →
    ∃ p : Peer, t.peers[i]? = some p ∧ p.key = some k
  count : (registrations deeds).length = t.station.sessions.length
  directory : ∀ d k, t.station.lookup? d = some k →
    ∃ s, t.station.session? k = some s ∧ s.deviceId = d ∧ s.closed = false
  closings : ∀ c ∈ t.closings, ∀ k ∈ c.keys, k < t.station.sessions.length ∧
    (c.hasCleared → ∀ d, t.station.lookup? d ≠ some k)

variable {callTimeout : Duration} {t t' : Traffic} {act : Act} {acts : List Act}
  {deeds : List (Nat × Effect)} {i : Nat} {p : Peer}

theorem kept_idle (callTimeout : Duration) : Kept [] (Traffic.idle callTimeout) where
  anonymous i p hget := absurd hget (by simp [Traffic.idle])
  keyed i p k hget := absurd hget (by simp [Traffic.idle])
  registered k i d hget := absurd hget (by simp [registrations])
  count := rfl
  directory d k h := absurd h (by simp [Traffic.idle, Station.lookup?, Station.empty])
  closings c hc := absurd hc (by simp [Traffic.idle])

theorem Kept.endures (h : Kept deeds t) {station : Station} (he : t.station.Endures station) :
    Kept deeds { t with station := station } where
  anonymous := h.anonymous
  keyed i p k hget hkey := by
    obtain ⟨s, hs, hregistered, hkept, hunlisted⟩ := h.keyed i p k hget hkey
    obtain ⟨s', hs', hsession, _⟩ := he.session k s hs
    refine ⟨s', hs', ?_, hkept.mono hsession, fun hmem d hd => ?_⟩
    · rw [hsession.deviceId]
      exact hregistered
    · exact hunlisted hmem d (he.lookup d k hd)
  registered := h.registered
  count := h.count.trans he.count.symm
  directory d k hd := by
    obtain ⟨s, hs, hdevice, hopen⟩ := h.directory d k (he.lookup d k hd)
    obtain ⟨s', hs', hsession, hclosed⟩ := he.session k s hs
    refine ⟨s', hs', hsession.deviceId.trans hdevice, Bool.eq_false_iff.2 fun hnow => ?_⟩
    rcases hclosed hnow with hbefore | hgone
    · rw [hopen] at hbefore
      exact absurd hbefore (by decide)
    · exact hgone d hd
  closings c hc k hk := by
    obtain ⟨hlt, hgone⟩ := h.closings c hc k hk
    exact ⟨he.count ▸ hlt, fun hcleared d hd => hgone hcleared d (he.lookup d k hd)⟩

theorem Kept.set_closing (h : Kept deeds t) {c' : Closing} (j : Nat)
    (hkeys : ∀ k ∈ c'.keys, k < t.station.sessions.length ∧
      (c'.hasCleared → ∀ d, t.station.lookup? d ≠ some k)) :
    Kept deeds { t with closings := t.closings.set j c' } where
  anonymous := h.anonymous
  keyed := h.keyed
  registered := h.registered
  count := h.count
  directory := h.directory
  closings c hc := by
    rcases List.mem_or_eq_of_mem_set hc with hold | rfl
    · exact h.closings c hold
    · exact hkeys

theorem Kept.close (h : Kept deeds t) {j : Nat} {c c' : Closing} {station : Station}
    (hget : t.closings[j]? = some c) (hnext : c.next t.station = some (station, c')) :
    Kept deeds { t with station := station, closings := t.closings.set j c' } := by
  have hkeys := h.closings c (List.mem_of_getElem? hget)
  cases closes_of_next hnext with
  | collect =>
    refine h.set_closing j fun k hk => ⟨?_, fun hcleared => hcleared.elim⟩
    obtain ⟨d, hd⟩ := Table.mem_values.1 hk
    obtain ⟨s, hs, _⟩ := h.directory d k hd
    exact Station.session?_lt hs
  | clear keys =>
    exact (h.endures (Station.endures_clear t.station)).set_closing j fun k hk =>
      ⟨(hkeys k hk).1, fun _ d hd => absurd hd (by simp [Station.clear, Station.lookup?])⟩
  | kill key keys =>
    have he := t.station.endures_update key Session.endures_close (Or.inl Session.closed_close)
    exact (h.endures he).set_closing j fun k hk =>
      ⟨he.count ▸ (hkeys k hk).1, (hkeys k hk).2⟩
  | mark key keys =>
    -- marking comes after the directory was emptied, and keys are registered once only
    have hgone := (hkeys key List.mem_cons_self).2 trivial
    have he := t.station.endures_update key Session.endures_markClosed (Or.inr hgone)
    exact (h.endures he).set_closing j fun k hk =>
      ⟨he.count ▸ (hkeys k (List.mem_cons_of_mem key hk)).1,
        (hkeys k (List.mem_cons_of_mem key hk)).2⟩

/-! ## What connections do -/

/-- What one effect of a connection other than a registration does to it, to the sessions and to the
directory, when it has done `es` before. -/
structure Does (p : Peer) (es : List Effect) (e : Effect) (st : Station) (p' : Peer)
    (st' : Station) : Prop where
  key : p'.key = p.key
  replies : p.key = none → p'.replies = p.replies ++ repliesOf [e]
  others : ∀ (k : SessionKey) (s : Session), p.key ≠ some k → st.session? k = some s →
    st'.session? k = some s
  own : ∀ (k : SessionKey) (s : Session), p.key = some k → st.session? k = some s →
    SessionKept s es → ∃ s', st'.session? k = some s' ∧ s'.deviceId = s.deviceId ∧
      SessionKept s' (es ++ [e]) ∧
      (s'.closed = true → s.closed = true ∨ ∀ d, st'.lookup? d ≠ some k)
  count : st'.sessions.length = st.sessions.length
  lookup : ∀ (d : String) (k : SessionKey), st'.lookup? d = some k → st.lookup? d = some k
  unlisted : e = .unlist → ∀ k, p.key = some k → ∀ d, st'.lookup? d ≠ some k

section Does

variable {p' : Peer} {es : List Effect} {e : Effect} {st st' : Station} {key : SessionKey}
  {f : Session → Session}

/-- A connection without a session changes nothing but itself. -/
theorem does_alone (hkey : p.key = none) (hsame : p'.key = p.key)
    (hreplies : p'.replies = p.replies ++ repliesOf [e]) : Does p es e st p' st where
  key := hsame
  replies _ := hreplies
  others _ _ _ hs := hs
  own k s hk := absurd (hkey.symm.trans hk) (by simp)
  count := rfl
  lookup _ _ hd := hd
  unlisted _ k hk := absurd (hkey.symm.trans hk) (by simp)

theorem does_update (hkey : p.key = some key) (hsame : p'.key = p.key) (hne : e ≠ .unlist)
    (hdevice : ∀ s, (f s).deviceId = s.deviceId)
    (hkept : ∀ s, SessionKept s es → SessionKept (f s) (es ++ [e]))
    (hclosed : (∀ s : Session, (f s).closed = s.closed) ∨ ∀ d, st.lookup? d ≠ some key) :
    Does p es e st p' (st.update key f) where
  key := hsame
  replies hnone := absurd (hkey.symm.trans hnone) (by simp)
  others k s hk hs := by
    have hneKey : key ≠ k := fun heq => hk (heq ▸ hkey)
    exact (Station.session?_update_of_ne hneKey).trans hs
  own k s hk hs hbefore := by
    obtain rfl : key = k := Option.some.inj (hkey.symm.trans hk)
    refine ⟨f s, Station.session?_update_self hs, hdevice s, hkept s hbefore, fun hnow => ?_⟩
    rcases hclosed with hstays | hgone
    · exact Or.inl ((hstays s).symm.trans hnow)
    · exact Or.inr hgone
  count := Station.length_update
  lookup _ _ hd := hd
  unlisted heq := absurd heq hne

theorem does_nothing (hkey : p.key = some key) (hsame : p'.key = p.key) (hne : e ≠ .unlist)
    (hkept : ∀ s, SessionKept s es → SessionKept s (es ++ [e])) : Does p es e st p' st where
  key := hsame
  replies hnone := absurd (hkey.symm.trans hnone) (by simp)
  others _ _ _ hs := hs
  own _ s _ hs hbefore := ⟨s, hs, rfl, hkept s hbefore, Or.inl⟩
  count := rfl
  lookup _ _ hd := hd
  unlisted heq := absurd heq hne

theorem does_unlist {s : Session} (hkey : p.key = some key) (hsame : p'.key = p.key)
    (hs : st.session? key = some s)
    (hdirectory : ∀ d, st.lookup? d = some key → s.deviceId = d) :
    Does p es .unlist st p' (st.removeSession key).1 where
  key := hsame
  replies hnone := absurd (hkey.symm.trans hnone) (by simp)
  others k r _ hr := by
    unfold Station.session?
    rw [Station.sessions_removeSession]
    exact hr
  own k r _ hr hbefore := by
    refine ⟨r, ?_, rfl, hbefore.skip rfl rfl (by simp) (by simp) (by simp), Or.inl⟩
    unfold Station.session?
    rw [Station.sessions_removeSession]
    exact hr
  count := congrArg List.length (Station.sessions_removeSession st key)
  lookup d k hd := by
    rw [Station.lookup?_removeSession hs] at hd
    split at hd
    · exact absurd hd (by simp)
    · exact hd
  unlisted _ k hk d hd := by
    obtain rfl : key = k := Option.some.inj (hkey.symm.trans hk)
    rw [Station.lookup?_removeSession hs] at hd
    split at hd
    · exact absurd hd (by simp)
    · next hnot =>
      have hdevice := hdirectory d hd
      exact hnot ⟨hdevice ▸ hd, hdevice.symm⟩

end Does

theorem does_perform_of_none {e : Effect} {es later : List Effect} (hkey : p.key = none)
    (hne : ∀ deviceId, e ≠ .enlist deviceId) (st : Station) :
    Does p es e st (Peer.perform { p with pending := later } callTimeout st e).2
      (Peer.perform { p with pending := later } callTimeout st e).1 := by
  obtain ⟨connection, address, pending, replies, key⟩ := p
  obtain rfl : key = none := hkey
  have hnil : replies = replies ++ [] := (List.append_nil _).symm
  cases e with
  | reply m => exact does_alone rfl rfl rfl
  | enlist deviceId => exact absurd rfl (hne deviceId)
  | announce => exact does_alone rfl rfl hnil
  | deliver m => exact does_alone rfl rfl hnil
  | unlist => exact does_alone rfl rfl hnil
  | retire => exact does_alone rfl rfl hnil
  | hangUp => exact does_alone rfl rfl hnil
  | complain fault => exact does_alone rfl rfl hnil
  | stopWriter => exact does_alone rfl rfl hnil

/-- An effect of a connection that has a session. Its place in the conversation sees to it that the
writer takes replies, that the session takes messages, and that what is marked closed has been
unregistered. -/
theorem does_perform_of_some {e : Effect} {es later more : List Effect} {ms : List Message}
    {k : SessionKey} {s : Session} (hkey : p.key = some k)
    (hne : ∀ deviceId, e ≠ .enlist deviceId) {st : Station} (hs : st.session? k = some s)
    (hdirectory : ∀ d, st.lookup? d = some k → s.deviceId = d)
    (hunlisted : .unlist ∈ es → ∀ d, st.lookup? d ≠ some k)
    (hconversation : es ++ e :: more = conversation ms) :
    Does p es e st (Peer.perform { p with pending := later } callTimeout st e).2
      (Peer.perform { p with pending := later } callTimeout st e).1 := by
  obtain ⟨connection, address, pending, replies, key⟩ := p
  obtain rfl : key = some k := hkey
  cases e with
  | reply m =>
    exact does_update rfl rfl (by simp) (fun s => (s.endures_post m).deviceId)
      (fun s h => h.reply m (stopWriter_not_mem_before_reply hconversation))
      (Or.inl fun s => s.closed_post m)
  | enlist deviceId => exact absurd rfl (hne deviceId)
  | announce =>
    exact does_nothing rfl rfl (by simp) fun s h => h.skip rfl rfl (by simp) (by simp) (by simp)
  | complain fault =>
    exact does_nothing rfl rfl (by simp) fun s h => h.skip rfl rfl (by simp) (by simp) (by simp)
  | unlist => exact does_unlist rfl rfl hs hdirectory
  | deliver m =>
    exact does_update rfl rfl (by simp) (fun s => s.deviceId_deliver m)
      (fun s h => h.deliver m (hangUp_not_mem_before_deliver hconversation))
      (Or.inl fun s => s.closed_deliver m)
  | retire =>
    exact does_update rfl rfl (by simp) (fun _ => rfl) (fun s h => h.retire)
      (Or.inr (hunlisted (unlist_mem_before_retire hconversation)))
  | hangUp =>
    exact does_update rfl rfl (by simp) (fun _ => rfl) (fun s h => h.hangUp)
      (Or.inl fun _ => rfl)
  | stopWriter =>
    exact does_update rfl rfl (by simp) (fun _ => rfl) (fun s h => h.stopWriter)
      (Or.inl fun _ => rfl)

/-! ## Every step -/

/-- Connections that come, read or end keep everything, as far as sessions are concerned. -/
theorem Kept.set_peers (h : Kept deeds t) {peers : List Peer}
    (hold : ∀ (i : Nat) (p : Peer), peers[i]? = some p →
      (∃ q, t.peers[i]? = some q ∧ p.key = q.key ∧ p.replies = q.replies) ∨
        (p.key = none ∧ p.replies = [] ∧ deedsOf i deeds = []))
    (hstay : ∀ (i : Nat) (q : Peer), t.peers[i]? = some q →
      ∃ p, peers[i]? = some p ∧ p.key = q.key) :
    Kept deeds { t with peers := peers } where
  anonymous i p hget hkey := by
    rcases hold i p hget with ⟨q, hq, hsame, hreplies⟩ | ⟨_, hreplies, hdeeds⟩
    · rw [hreplies]
      exact h.anonymous i q hq (hsame ▸ hkey)
    · rw [hreplies, hdeeds]
      rfl
  keyed i p k hget hkey := by
    rcases hold i p hget with ⟨q, hq, hsame, _⟩ | ⟨hnone, _⟩
    · exact h.keyed i q k hq (hsame ▸ hkey)
    · exact absurd (hnone.symm.trans hkey) (by simp)
  registered k i d hk := by
    obtain ⟨q, hq, hkey⟩ := h.registered k i d hk
    obtain ⟨p, hp, hsame⟩ := hstay i q hq
    exact ⟨p, hp, hsame.trans hkey⟩
  count := h.count
  directory := h.directory
  closings := h.closings

theorem Kept.key_injective (h : Kept deeds t) {j : Nat} {q : Peer} {k : SessionKey}
    (hi : t.peers[i]? = some p) (hj : t.peers[j]? = some q) (hp : p.key = some k)
    (hq : q.key = some k) : i = j := by
  obtain ⟨s, _, hs, _⟩ := h.keyed i p k hi hp
  obtain ⟨r, _, hr, _⟩ := h.keyed j q k hj hq
  exact congrArg Prod.fst (Option.some.inj (hs.symm.trans hr))

/-- A connection performs an effect other than a registration. -/
theorem Kept.perform_of_ne (h : Kept deeds t) {p' : Peer} {e : Effect} {st' : Station}
    (hget : t.peers[i]? = some p) (hne : ∀ deviceId, e ≠ .enlist deviceId)
    (hdoes : Does p (deedsOf i deeds) e t.station p' st') (waits : List Wait) :
    Kept (deeds ++ [(i, e)])
      { t with station := st', peers := t.peers.set i p', waits := waits } := by
  have hregistrations : registrations (deeds ++ [(i, e)]) = registrations deeds :=
    registrations_concat_of_ne hne
  refine ⟨?anonymous, ?keyed, ?registered, ?count, ?directory, ?closings⟩
  case anonymous =>
    intro j q hj hkey
    rcases getElem?_set_cases hget hj with ⟨rfl, rfl⟩ | ⟨hji, hold⟩
    · have hnone : p.key = none := hdoes.key.symm.trans hkey
      rw [deedsOf_concat_self, hdoes.replies hnone, h.anonymous j p hget hnone, repliesOf_append]
    · rw [deedsOf_concat_of_ne (Ne.symm hji)]
      exact h.anonymous j q hold hkey
  case keyed =>
    intro j q k hj hkey
    rw [hregistrations]
    rcases getElem?_set_cases hget hj with ⟨rfl, rfl⟩ | ⟨hji, hold⟩
    · -- its own session
      have hsome : p.key = some k := hdoes.key.symm.trans hkey
      obtain ⟨s, hs, hregistered, hkept, hunlisted⟩ := h.keyed j p k hget hsome
      obtain ⟨s', hs', hdevice, hkept', _⟩ := hdoes.own k s hsome hs hkept
      rw [deedsOf_concat_self]
      refine ⟨s', hs', ?_, hkept', fun hmem d hd => ?_⟩
      · rw [hdevice]
        exact hregistered
      · rcases List.mem_append.1 hmem with hbefore | hnow
        · exact hunlisted hbefore d (hdoes.lookup d k hd)
        · exact hdoes.unlisted (List.mem_singleton.1 hnow).symm k hsome d hd
    · -- another connection's, which it cannot be holding too
      obtain ⟨s, hs, hregistered, hkept, hunlisted⟩ := h.keyed j q k hold hkey
      have hnot : p.key ≠ some k := fun hp => hji (h.key_injective hold hget hkey hp)
      rw [deedsOf_concat_of_ne (Ne.symm hji)]
      exact ⟨s, hdoes.others k s hnot hs, hregistered, hkept,
        fun hmem d hd => hunlisted hmem d (hdoes.lookup d k hd)⟩
  case registered =>
    intro k j d hk
    rw [hregistrations] at hk
    obtain ⟨q, hq, hkey⟩ := h.registered k j d hk
    by_cases hji : j = i
    · subst hji
      obtain rfl : q = p := Option.some.inj (hq.symm.trans hget)
      have hlt : j < t.peers.length := (List.getElem?_eq_some_iff.1 hget).1
      exact ⟨p', List.getElem?_set_self hlt, hdoes.key.trans hkey⟩
    · exact ⟨q, (List.getElem?_set_ne (Ne.symm hji)).trans hq, hkey⟩
  case count =>
    rw [hregistrations]
    exact h.count.trans hdoes.count.symm
  case directory =>
    intro d k hd
    obtain ⟨s, hs, hdevice, hopen⟩ := h.directory d k (hdoes.lookup d k hd)
    by_cases hkey : p.key = some k
    · obtain ⟨r, hr, _, hkept, _⟩ := h.keyed i p k hget hkey
      obtain rfl : s = r := Option.some.inj (hs.symm.trans hr)
      obtain ⟨s', hs', hdevice', _, hclosed⟩ := hdoes.own k s hkey hs hkept
      refine ⟨s', hs', hdevice'.trans hdevice, Bool.eq_false_iff.2 fun hnow => ?_⟩
      rcases hclosed hnow with hbefore | hgone
      · exact absurd (hopen.symm.trans hbefore) (by decide)
      · exact hgone d hd
    · exact ⟨s, hdoes.others k s hkey hs, hdevice, hopen⟩
  case closings =>
    intro c hc k hk
    obtain ⟨hlt, hgone⟩ := h.closings c hc k hk
    refine ⟨?_, fun hcleared d hd => hgone hcleared d (hdoes.lookup d k hd)⟩
    rw [hdoes.count]
    exact hlt

theorem mem_deedsOf_of_registered {k : SessionKey} {d : String}
    (h : (registrations deeds)[k]? = some (i, d)) : .enlist d ∈ deedsOf i deeds := by
  obtain ⟨⟨j, e⟩, hmem, he⟩ := List.mem_filterMap.1 (List.mem_of_getElem? h)
  cases e with
  | enlist deviceId =>
    cases he
    exact List.mem_filterMap.2 ⟨_, hmem, if_pos rfl⟩
  | _ => exact absurd he (by simp)

/-- A connection that has done nothing but reply has no session. -/
theorem Kept.key_eq_none (h : Kept deeds t) (hget : t.peers[i]? = some p)
    (hreplies : ∀ e ∈ deedsOf i deeds, ∃ m, e = .reply m) : p.key = none := by
  rcases Option.eq_none_or_eq_some p.key with hkey | ⟨k, hkey⟩
  · exact hkey
  · obtain ⟨s, _, hs, _⟩ := h.keyed i p k hget hkey
    obtain ⟨m, hm⟩ := hreplies _ (mem_deedsOf_of_registered hs)
    exact absurd hm (by simp)

/-- A connection registers its session. Up to then it has done nothing but reply. -/
theorem Kept.enlist (h : Kept deeds t) {deviceId : String} {later : List Effect}
    (hget : t.peers[i]? = some p) (hreplies : ∀ e ∈ deedsOf i deeds, ∃ m, e = .reply m)
    (waits : List Wait) :
    Kept (deeds ++ [(i, .enlist deviceId)]) { t with
      station := t.station.enlist
        { Session.connect deviceId p.address callTimeout with outbox := p.replies }
      peers := t.peers.set i
        { p with pending := later, key := some t.station.sessions.length }
      waits := waits } := by
  have hregistrations : registrations (deeds ++ [(i, .enlist deviceId)])
      = registrations deeds ++ [(i, deviceId)] := registrations_append _ _
  have hanonymous : p.key = none := h.key_eq_none hget hreplies
  have hi : i < t.peers.length := (List.getElem?_eq_some_iff.1 hget).1
  refine ⟨?anonymous, ?keyed, ?registered, ?count, ?directory, ?closings⟩
  case anonymous =>
    intro j q hj hkey
    rcases getElem?_set_cases hget hj with ⟨rfl, rfl⟩ | ⟨hji, hold⟩
    · exact absurd hkey (by simp)
    · rw [deedsOf_concat_of_ne (Ne.symm hji)]
      exact h.anonymous j q hold hkey
  case keyed =>
    intro j q k hj hkey
    rw [hregistrations]
    rcases getElem?_set_cases hget hj with ⟨rfl, rfl⟩ | ⟨hji, hold⟩
    · -- the session it has just made takes over the replies from before
      obtain rfl : t.station.sessions.length = k := Option.some.inj hkey
      rw [deedsOf_concat_self, h.anonymous j p hget hanonymous, ← h.count]
      refine ⟨_, h.count ▸ Station.session?_enlist_last _ _, List.getElem?_concat_length,
        SessionKept.enlist deviceId p.address callTimeout hreplies, fun hmem => ?_⟩
      rcases List.mem_append.1 hmem with hbefore | hnow
      · obtain ⟨m, hm⟩ := hreplies _ hbefore
        exact absurd hm (by simp)
      · exact absurd (List.mem_singleton.1 hnow) (by simp)
    · obtain ⟨s, hs, hregistered, hkept, hunlisted⟩ := h.keyed j q k hold hkey
      have hlt := Station.session?_lt hs
      rw [deedsOf_concat_of_ne (Ne.symm hji)]
      exact ⟨s, (Station.session?_enlist_of_lt hlt _).trans hs,
        getElem?_append_of_some hregistered _, hkept,
        fun hmem d hd => hunlisted hmem d (Station.lookup?_before_enlist hd hlt)⟩
  case registered =>
    intro k j d hk
    rw [hregistrations] at hk
    rcases getElem?_append_cases hk with hold | ⟨rfl, hnew⟩
    · obtain ⟨q, hq, hkey⟩ := h.registered k j d hold
      have hji : j ≠ i := by
        rintro rfl
        obtain rfl : p = q := Option.some.inj (hget.symm.trans hq)
        exact absurd (hanonymous.symm.trans hkey) (by simp)
      exact ⟨q, (List.getElem?_set_ne (Ne.symm hji)).trans hq, hkey⟩
    · obtain ⟨rfl, rfl⟩ := Prod.mk.inj hnew
      exact ⟨_, List.getElem?_set_self hi, congrArg some h.count.symm⟩
  case count =>
    rw [hregistrations, List.length_append, List.length_singleton, h.count]
    exact (Station.length_enlist _ _).symm
  case directory =>
    intro d k hd
    rw [Station.lookup?_enlist] at hd
    split at hd
    · next hd' =>
      obtain rfl := Option.some.inj hd
      exact ⟨_, Station.session?_enlist_last _ _, hd'.symm, rfl⟩
    · obtain ⟨s, hs, hdevice, hopen⟩ := h.directory d k hd
      exact ⟨s, (Station.session?_enlist_of_lt (Station.session?_lt hs) _).trans hs, hdevice, hopen⟩
  case closings =>
    intro c hc k hk
    obtain ⟨hlt, hgone⟩ := h.closings c hc k hk
    refine ⟨?_, fun hcleared d hd => hgone hcleared d (Station.lookup?_before_enlist hd hlt)⟩
    rw [Station.length_enlist]
    exact Nat.lt_succ_of_lt hlt

/-- A connection performs whatever is next in its conversation. -/
theorem Kept.perform (h : Kept deeds t) (hscripts : InStep acts deeds t) {e : Effect}
    {later : List Effect} (hget : t.peers[i]? = some p) (hpending : p.pending = e :: later)
    (waits : List Wait) :
    Kept (deeds ++ [(i, e)]) { t with
      station := (Peer.perform { p with pending := later } t.callTimeout t.station e).1
      peers := t.peers.set i
        (Peer.perform { p with pending := later } t.callTimeout t.station e).2
      waits := waits } := by
  obtain ⟨more, ms, hms⟩ := hscripts.conversation hget
  rw [hpending, List.cons_append] at hms
  by_cases henlist : ∃ deviceId, e = .enlist deviceId
  · obtain ⟨deviceId, rfl⟩ := henlist
    exact h.enlist hget (reply_of_mem_before_enlist hms) waits
  · have hne : ∀ deviceId, e ≠ .enlist deviceId := fun deviceId heq => henlist ⟨deviceId, heq⟩
    refine h.perform_of_ne hget hne ?_ waits
    rcases Option.eq_none_or_eq_some p.key with hkey | ⟨k, hkey⟩
    · exact does_perform_of_none hkey hne t.station
    · obtain ⟨s, hs, _, _, hunlisted⟩ := h.keyed i p k hget hkey
      refine does_perform_of_some hkey hne hs (fun d hd => ?_) hunlisted hms
      obtain ⟨r, hr, hdevice, _⟩ := h.directory d k hd
      obtain rfl : s = r := Option.some.inj (hs.symm.trans hr)
      exact hdevice

theorem Kept.set_peer (h : Kept deeds t) {q : Peer} (hget : t.peers[i]? = some p)
    (hkey : q.key = p.key) (hreplies : q.replies = p.replies) :
    Kept deeds { t with peers := t.peers.set i q } := by
  refine h.set_peers (fun j r hj => Or.inl ?_) fun j r hj => ?_
  · rcases getElem?_set_cases hget hj with ⟨rfl, rfl⟩ | ⟨_, hold⟩
    · exact ⟨p, hget, hkey, hreplies⟩
    · exact ⟨r, hold, rfl, rfl⟩
  · by_cases hji : j = i
    · subst hji
      obtain rfl : r = p := Option.some.inj (hj.symm.trans hget)
      exact ⟨q, List.getElem?_set_self (List.getElem?_eq_some_iff.1 hget).1, hkey⟩
    · exact ⟨r, (List.getElem?_set_ne (Ne.symm hji)).trans hj, rfl⟩

theorem deed_of_ne (h : ∀ i, act ≠ .perform i) : t.deed act = [] := by
  cases act with
  | perform i => exact absurd rfl (h i)
  | _ => rfl

theorem deed_of_isAside (h : act.IsAside) : t.deed act = [] :=
  deed_of_ne fun i heq => by
    rw [heq] at h
    exact h

theorem Kept.step (h : Kept deeds t) (hscripts : InStep acts deeds t) (hsteps : t.Steps act t') :
    Kept (deeds ++ t.deed act) t' := by
  cases hsteps with
  | accept address =>
    -- nothing is on record of a connection that has just come
    rw [deed_of_ne (by simp), List.append_nil]
    refine h.set_peers (fun i p hget => ?_) fun i q hq => ?_
    · rcases getElem?_append_cases hget with hold | ⟨rfl, rfl⟩
      · exact Or.inl ⟨p, hold, rfl, rfl⟩
      · exact Or.inr ⟨rfl, rfl, (hscripts.absent _ (Nat.le_refl _)).1⟩
    · exact ⟨q, getElem?_append_of_some hq _, rfl⟩
  | receive bytes hget _ _ =>
    rw [deed_of_ne (by simp), List.append_nil]
    exact h.set_peer hget rfl rfl
  | finish hget _ _ =>
    rw [deed_of_ne (by simp), List.append_nil]
    exact h.set_peer hget rfl rfl
  | perform hget hpending =>
    rw [deed_perform hget hpending]
    exact h.perform hscripts hget hpending _
  | shutdown =>
    rw [deed_of_ne (by simp), List.append_nil]
    refine ⟨h.anonymous, h.keyed, h.registered, h.count, h.directory, fun c hc k hk => ?_⟩
    rcases List.mem_append.1 hc with hold | hnew
    · exact h.closings c hold k hk
    · rw [List.mem_singleton.1 hnew] at hk
      exact absurd hk List.not_mem_nil
  | close hget hnext =>
    rw [deed_of_ne (by simp), List.append_nil]
    exact h.close hget hnext
  | aside haside =>
    rw [deed_of_isAside haside, List.append_nil]
    exact ⟨h.anonymous, h.keyed, h.registered, h.count, h.directory, h.closings⟩
  | @post j key m visits =>
    rw [deed_of_ne (by simp), List.append_nil]
    have hkept := h.endures (t.station.endures_update key (fun s => s.endures_post m)
      (Or.inl fun s => s.closed_post m))
    exact ⟨hkept.anonymous, hkept.keyed, hkept.registered, hkept.count, hkept.directory,
      hkept.closings⟩

/-- **Sessions and directory are what the history tells**, at every moment of every run. -/
theorem History.kept (h : History callTimeout acts deeds t) : Kept deeds t := by
  induction h with
  | idle => exact kept_idle callTimeout
  | step before hstep ih => exact ih.step before.scripts (steps_of_step hstep)

end Traffic

end Server

end KeywordRunner
