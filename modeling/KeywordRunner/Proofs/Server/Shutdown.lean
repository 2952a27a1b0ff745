import KeywordRunner.Proofs.Server.Handshake

/-!
# Proofs.Server.Shutdown — what becomes of the sessions when everything is closed

A shutdown lists the registered sessions, empties the directory, and then sends each session on its
list a kill signal and marks it closed. Listing and emptying are two steps, and a connection may
register a session in between. Such a session is on no list and no longer in the directory; it is
the only way in which a session gets lost.

* **`Traffic.Fate`** — what may have become of a session.
* **`shutdown_accounts_for_sessions`** — every session has one of these fates, only those that come
  between the two steps are missed, and every shutdown can come to its end as far as there is room
  for its kill signals.
* **`latecomer_lost`** — one that comes between them stays open, and nobody tells its device.
-/

namespace KeywordRunner

open Wire (Message encodeFrame)

/-- A session that has been sent a kill signal, as far as its writer is there. -/
def Session.IsTold (s : Session) : Prop := .killSignal ∈ s.outbox ∨ s.writerOpen = false

namespace Session

variable {s s' : Session} {more : List Message}

theorem Gets.isTold (h : s.Gets more s') (htold : s.IsTold) : s'.IsTold := by
  rcases htold with hmem | hgone
  · left
    rw [h.outbox]
    exact List.mem_append_left _ hmem
  · right
    apply Bool.eq_false_iff.2
    intro hopen
    exact absurd ((h.writerOpen hopen).symm.trans hgone) (by decide)

theorem Gets.isTold_of_kill (h : s.Gets more s') (hkill : .killSignal ∈ more) : s'.IsTold := by
  cases hopen : s.writerOpen with
  | true =>
    left
    rw [h.outbox, if_pos hopen]
    exact List.mem_append_right _ hkill
  | false => exact h.isTold (Or.inr hopen)

end Session

namespace Server

theorem Station.mem_registered {st : Station} {k : SessionKey} :
    k ∈ st.registered ↔ ∃ d, st.lookup? d = some k := Table.mem_values

namespace Traffic

variable {callTimeout : Duration} {t t' : Traffic} {act : Act} {acts : List Act}
  {deeds : List (Nat × Effect)} {i j : Nat} {p : Peer} {d : String} {k : SessionKey}

/-! ## Who leaves the directory -/

/-- A shutdown puts nothing into the directory. -/
theorem lookup?_of_next {c c' : Closing} {st st' : Station} (hnext : c.next st = some (st', c'))
    (hd : st'.lookup? d = some k) : st.lookup? d = some k := by
  cases closes_of_next hnext with
  | clear keys => exact absurd hd (by simp [Station.clear, Station.lookup?])
  | _ => exact hd

/-- The sessions that connections put out of the directory: a registration the one in whose place it
comes, and a connection its own. -/
def displaced (t : Traffic) (act : Act) : List SessionKey :=
  (t.deed act).flatMap fun
    | (_, .enlist deviceId) => (t.station.lookup? deviceId).toList
    | (i, .unlist) =>
      ((t.peers[i]?.bind (·.key)).filter fun key => key ∈ t.station.registered).toList
    | _ => []

/-- The number of sessions there are when a shutdown makes its list. -/
def listing (t : Traffic) : Act → List (Nat × Nat)
  | .close j =>
    match t.closings[j]? with
    | some .collecting => [(j, t.station.sessions.length)]
    | _ => []
  | _ => []

/-- The sessions that a shutdown puts out of the directory without having them on its list. -/
def missed (t : Traffic) : Act → List (Nat × SessionKey)
  | .close j =>
    match t.closings[j]? with
    | some (.clearing keys) => (t.station.registered.filter (· ∉ keys)).map fun key => (j, key)
    | _ => []
  | _ => []

theorem displaced_perform {e : Effect} {later : List Effect} (hget : t.peers[i]? = some p)
    (hpending : p.pending = e :: later) :
    k ∈ t.displaced (.perform i) ↔
      (∃ deviceId, e = .enlist deviceId ∧ t.station.lookup? deviceId = some k) ∨
        (e = .unlist ∧ p.key = some k ∧ k ∈ t.station.registered) := by
  unfold displaced
  rw [deed_perform hget hpending]
  cases e with
  | enlist deviceId => simp
  | unlist => simp [hget, Option.filter_eq_some_iff]
  | _ => simp

/-- A session is registered under its own id only. -/
theorem Kept.id_unique (h : Kept deeds t) {d' : String} (hd : t.station.lookup? d = some k)
    (hd' : t.station.lookup? d' = some k) : d = d' := by
  obtain ⟨s, hs, hdevice, _⟩ := h.directory d k hd
  obtain ⟨r, hr, hdevice', _⟩ := h.directory d' k hd'
  obtain rfl := Option.some.inj (hs.symm.trans hr)
  exact hdevice.symm.trans hdevice'

/-- A registration puts out the session of its id, and no other one there was. -/
theorem lookup?_of_enlist (h : Kept deeds t) {s : Session} (hlt : k < t.station.sessions.length) :
    (t.station.enlist s).lookup? d = some k ↔
      t.station.lookup? d = some k ∧ t.station.lookup? s.deviceId ≠ some k := by
  rw [Station.lookup?_enlist]
  by_cases hd : d = s.deviceId
  · rw [if_pos hd]
    subst hd
    constructor
    · intro hlast
      exact absurd (Option.some.inj hlast) (Nat.ne_of_gt hlt)
    · rintro ⟨hk, hnot⟩
      exact absurd hk hnot
  · rw [if_neg hd]
    exact (and_iff_left_of_imp fun hk hother => hd (h.id_unique hk hother)).symm

/-- What an effect of a connection leaves in the directory of the sessions there were. -/
theorem lookup?_of_perform (h : Kept deeds t) {e : Effect} {later : List Effect}
    (hget : t.peers[i]? = some p) (hpending : p.pending = e :: later)
    (hlt : k < t.station.sessions.length) :
    (Peer.perform { p with pending := later } t.callTimeout t.station e).1.lookup? d = some k ↔
      t.station.lookup? d = some k ∧ k ∉ t.displaced (.perform i) := by
  rw [displaced_perform hget hpending]
  by_cases henlist : ∃ deviceId, e = .enlist deviceId
  · obtain ⟨deviceId, rfl⟩ := henlist
    refine (lookup?_of_enlist h hlt).trans (and_congr_right fun _ => not_congr ?_)
    simp [Session.connect]
  · have hne : ∀ deviceId, e ≠ .enlist deviceId := fun deviceId heq => henlist ⟨deviceId, heq⟩
    by_cases hunlist : e = .unlist
    · subst hunlist
      rw [h.lookup?_unlist hget]
      refine and_congr_right fun hk => ?_
      have hmem : k ∈ t.station.registered := Station.mem_registered.2 ⟨d, hk⟩
      simp [hmem]
    · rw [lookup?_perform _ _ hne hunlist]
      refine (and_iff_left ?_).symm
      rintro (⟨deviceId, heq, _⟩ | ⟨heq, _⟩)
      · exact hne deviceId heq
      · exact hunlist heq

/-- **Who stays in the directory.** Apart from shutdowns, every session but the displaced ones. -/
theorem lookup?_of_step (h : Kept deeds t) (hstep : t.step act = some t')
    (hne : ∀ j, act ≠ .close j) (hlt : k < t.station.sessions.length) :
    t'.station.lookup? d = some k ↔ t.station.lookup? d = some k ∧ k ∉ t.displaced act := by
  by_cases hperform : ∃ i, act = .perform i
  · obtain ⟨i, rfl⟩ := hperform
    cases steps_of_step hstep with
    | perform hget hpending => exact lookup?_of_perform h hget hpending hlt
    | aside haside => exact haside.elim
  · have hnone : t.displaced act = [] := by
      rw [displaced, deed_of_ne fun i heq => hperform ⟨i, heq⟩]
      rfl
    have hsame : t'.station.lookup? d = t.station.lookup? d := by
      cases steps_of_step hstep with
      | perform => exact absurd ⟨_, rfl⟩ hperform
      | close => exact absurd rfl (hne _)
      | _ => rfl
    rw [hsame, hnone]
    exact (and_iff_left List.not_mem_nil).symm

/-- What a step finds in the directory of the sessions there were has been in it before. -/
theorem lookup?_before (h : Kept deeds t) (hstep : t.step act = some t')
    (hlt : k < t.station.sessions.length) (hd : t'.station.lookup? d = some k) :
    t.station.lookup? d = some k := by
  by_cases hclose : ∃ j, act = .close j
  · obtain ⟨j, rfl⟩ := hclose
    cases steps_of_step hstep with
    | close hget hnext => exact lookup?_of_next hnext hd
    | aside haside => exact haside.elim
  · exact ((lookup?_of_step h hstep (fun j heq => hclose ⟨j, heq⟩) hlt).1 hd).1

theorem length_sessions_le (hstep : t.step act = some t') :
    t.station.sessions.length ≤ t'.station.sessions.length := by
  have hnone : t'.station.session? t'.station.sessions.length = none :=
    List.getElem?_eq_none (Nat.le_refl _)
  exact List.getElem?_eq_none_iff.1 (session?_of_step_none hstep hnone)

/-! ## How far a shutdown has come -/

theorem closing_of_ne {c : Closing} (hstep : t.step act = some t') (hne : act ≠ .close j)
    (hget : t.closings[j]? = some c) : t'.closings[j]? = some c := by
  cases steps_of_step hstep with
  | shutdown => exact getElem?_append_of_some hget _
  | @close i _ _ _ _ _ =>
    have hij : i ≠ j := fun heq => hne (congrArg Act.close heq)
    exact (List.getElem?_set_ne hij).trans hget
  | _ => exact hget

/-- Only its own steps change a shutdown; a new one is about to make its list. -/
theorem closing_cases {c' : Closing} (hstep : t.step act = some t')
    (hget : t'.closings[j]? = some c') :
    t.closings[j]? = some c' ∨ c' = .collecting ∨
      ∃ c station, act = .close j ∧ t.closings[j]? = some c ∧ Closes t.station c station c' := by
  cases steps_of_step hstep with
  | shutdown =>
    rcases getElem?_append_cases hget with hold | ⟨_, hnew⟩
    · exact Or.inl hold
    · exact Or.inr (Or.inl hnew)
  | close hget' hnext =>
    rcases getElem?_set_cases hget' hget with ⟨rfl, rfl⟩ | ⟨_, hold⟩
    · exact Or.inr (Or.inr ⟨_, _, rfl, hget', closes_of_next hnext⟩)
    · exact Or.inl hold
  | _ => exact Or.inl hget

/-- Who is about to be marked closed has been told. -/
theorem History.told (h : History callTimeout acts deeds t) {keys : List SessionKey}
    (hget : t.closings[j]? = some (.marking (k :: keys))) :
    ∃ s, t.station.session? k = some s ∧ s.IsTold := by
  induction h with
  | idle => exact absurd hget (by simp [Traffic.idle])
  | step before hstep ih =>
    rcases closing_cases hstep hget with hold | hnew | ⟨c, station, rfl, hbefore, hcloses⟩
    · obtain ⟨s, hs, htold⟩ := ih hold
      obtain ⟨s', hs', hgets⟩ := session_of_step hstep hs
      exact ⟨s', hs', hgets.isTold htold⟩
    · exact absurd hnew (by simp)
    · cases hcloses
      have hlt := (before.kept.closings _ (List.mem_of_getElem? hbefore) k List.mem_cons_self).1
      obtain ⟨s', hs', hgets⟩ := session_of_step hstep (List.getElem?_eq_getElem hlt)
      refine ⟨s', hs', hgets.isTold_of_kill ?_⟩
      unfold offered
      dsimp only
      rw [hbefore, Option.map_some, Option.getD_some, Closing.offered, if_pos rfl]
      exact List.mem_cons_self

/-- On the list of a shutdown that is about to empty the directory is whoever is registered now and
was there when the list was made. -/
theorem History.listed (h : History callTimeout acts deeds t) {keys : List SessionKey}
    (hget : t.closings[j]? = some (.clearing keys)) :
    ∃ n, (j, n) ∈ (Traffic.idle callTimeout).collect listing acts ∧
      n ≤ t.station.sessions.length ∧
      ∀ d k, k < n → t.station.lookup? d = some k → k ∈ keys := by
  induction h with
  | idle => exact absurd hget (by simp [Traffic.idle])
  | @step acts deeds t t' act before hstep ih =>
    rw [collect_append listing before.run, collect_singleton]
    rcases closing_cases hstep hget with hold | hnew | ⟨c, station, rfl, hbefore, hcloses⟩
    · obtain ⟨n, hmem, hle, hlisted⟩ := ih hold
      refine ⟨n, List.mem_append_left _ hmem, Nat.le_trans hle (length_sessions_le hstep), ?_⟩
      intro d k hlt hd
      exact hlisted d k hlt (lookup?_before before.kept hstep (Nat.lt_of_lt_of_le hlt hle) hd)
    · exact absurd hnew (by simp)
    · cases hcloses
      refine ⟨t.station.sessions.length, List.mem_append_right _ ?_, length_sessions_le hstep, ?_⟩
      · unfold listing
        dsimp only
        rw [hbefore]
        exact List.mem_cons_self
      · intro d k hlt hd
        exact Station.mem_registered.2 ⟨d, lookup?_before before.kept hstep hlt hd⟩

/-- Whoever is marked closed is the first of some sessions. -/
theorem History.marking_ne_nil (h : History callTimeout acts deeds t) :
    t.closings[j]? ≠ some (.marking []) := by
  induction h with
  | idle => simp [Traffic.idle]
  | step before hstep ih =>
    intro hget
    rcases closing_cases hstep hget with hold | hnew | ⟨c, station, rfl, hbefore, hcloses⟩
    · exact ih hold
    · exact absurd hnew (by simp)
    · cases hcloses

/-- A shutdown can come to its end by its own steps, as far as there is room for the kill signals:
sending one may have to wait for the writer of its session (see `Server.Traffic`). -/
def CanClose (j : Nat) (t : Traffic) : Prop :=
  ∃ n t', t.run (List.replicate n (.close j)) = some t' ∧ t'.closings[j]? = some (.killing [])

theorem CanClose.of_next {c c' : Closing} {station : Station} (hget : t.closings[j]? = some c)
    (hnext : c.next t.station = some (station, c'))
    (h : ∀ t₁ : Traffic, t₁.closings[j]? = some c' → CanClose j t₁) : CanClose j t := by
  have hself : (t.closings.set j c')[j]? = some c' :=
    List.getElem?_set_self (List.getElem?_eq_some_iff.1 hget).1
  have hstep : t.step (.close j)
      = some { t with station := station, closings := t.closings.set j c' } := by
    show t.closings[j]?.bind _ = _
    rw [hget, Option.bind_some, hnext]
    rfl
  obtain ⟨n, t', hrun, hover⟩ :=
    h { t with station := station, closings := t.closings.set j c' } hself
  refine ⟨n + 1, t', ?_, hover⟩
  show (t.step (.close j)).bind _ = _
  rw [hstep]
  exact hrun

theorem canClose_of_killing (keys : List SessionKey) (hget : t.closings[j]? = some (.killing keys)) :
    CanClose j t := by
  induction keys generalizing t with
  | nil => exact ⟨0, t, rfl, hget⟩
  | cons key keys ih => exact .of_next hget rfl fun t₁ hmarking => .of_next hmarking rfl @ih

/-- **Every shutdown can come to its end**, as far as there is room in the queues of the sessions on
its list; it waits for nothing but that. -/
theorem History.can_close (h : History callTimeout acts deeds t) {c : Closing}
    (hget : t.closings[j]? = some c) : CanClose j t := by
  cases c with
  | collecting =>
    exact .of_next hget rfl fun t₁ hclearing =>
      .of_next hclearing rfl fun t₂ => canClose_of_killing _
  | clearing keys => exact .of_next hget rfl fun t₁ => canClose_of_killing keys
  | killing keys => exact canClose_of_killing keys hget
  | marking keys =>
    cases keys with
    | nil => exact absurd hget h.marking_ne_nil
    | cons key keys => exact .of_next hget rfl fun t₁ => canClose_of_killing keys

/-! ## What becomes of a session -/

/-- What has become of a session that no connection has put out of the directory. -/
inductive Fate (missed : List (Nat × SessionKey)) (t : Traffic) (d : String) (k : SessionKey) :
    Prop where
  | registered (hd : t.station.lookup? d = some k)
  /-- A shutdown has put it out, and is going to close it. -/
  | listed {j : Nat} {c : Closing} (hget : t.closings[j]? = some c) (hcleared : c.hasCleared)
      (hmem : k ∈ c.keys)
  | closed {s : Session} (hs : t.station.session? k = some s) (hclosed : s.closed = true)
      (htold : s.IsTold)
  | missed {j : Nat} (hmissed : (j, k) ∈ missed)

section Fate

variable {misses : List (Nat × SessionKey)}

/-- A registered session stays so, or it goes over to the shutdown that has listed it. -/
theorem Fate.of_registered (h : Kept deeds t) (hstep : t.step act = some t')
    (hd : t.station.lookup? d = some k) (hstays : k ∉ t.displaced act) :
    Fate (misses ++ t.missed act) t' d k := by
  by_cases hclose : ∃ j, act = .close j
  · obtain ⟨j, rfl⟩ := hclose
    cases steps_of_step hstep with
    | close hget hnext =>
      cases closes_of_next hnext with
      | clear keys =>
        by_cases hlisted : k ∈ keys
        · have hself : (t.closings.set j (.killing keys))[j]? = some (.killing keys) :=
            List.getElem?_set_self (List.getElem?_eq_some_iff.1 hget).1
          exact .listed hself trivial hlisted
        · refine .missed (j := j) (List.mem_append_right _ ?_)
          unfold Traffic.missed
          dsimp only
          rw [hget]
          refine List.mem_map.2 ⟨k, List.mem_filter.2 ⟨?_, decide_eq_true hlisted⟩, rfl⟩
          exact Station.mem_registered.2 ⟨d, hd⟩
      | _ => exact .registered hd
    | aside haside => exact haside.elim
  · obtain ⟨s, hs, _⟩ := h.directory d k hd
    have hlt := Station.session?_lt hs
    exact .registered
      ((lookup?_of_step h hstep (fun j heq => hclose ⟨j, heq⟩) hlt).2 ⟨hd, hstays⟩)

/-- A shutdown closes the sessions on its list one after the other. -/
theorem Fate.of_listed (h : History callTimeout acts deeds t) (hstep : t.step act = some t')
    {c : Closing} (hget : t.closings[j]? = some c) (hcleared : c.hasCleared) (hmem : k ∈ c.keys) :
    Fate misses t' d k := by
  by_cases hclose : act = .close j
  · subst hclose
    cases steps_of_step hstep with
    | @close _ _ c' station hget' hnext =>
      obtain rfl := Option.some.inj (hget.symm.trans hget')
      have hself : (t.closings.set j c')[j]? = some c' :=
        List.getElem?_set_self (List.getElem?_eq_some_iff.1 hget).1
      cases closes_of_next hnext with
      | collect => exact hcleared.elim
      | clear keys => exact hcleared.elim
      | kill key keys => exact .listed hself trivial hmem
      | mark key keys =>
        rcases List.mem_cons.1 hmem with rfl | hlater
        · obtain ⟨s, hs, htold⟩ := h.told hget
          refine .closed (Station.session?_update_self hs) rfl ?_
          exact s.gets_markClosed.isTold htold
        · exact .listed hself trivial hlater
    | aside haside => exact haside.elim
  · exact .listed (closing_of_ne hstep hclose hget) hcleared hmem

theorem Fate.step (hfate : Fate misses t d k) (h : History callTimeout acts deeds t)
    (hstep : t.step act = some t') (hstays : k ∉ t.displaced act) :
    Fate (misses ++ t.missed act) t' d k := by
  cases hfate with
  | registered hd => exact .of_registered h.kept hstep hd hstays
  | listed hget hcleared hmem => exact .of_listed h hstep hget hcleared hmem
  | closed hs hclosed htold =>
    obtain ⟨s', hs', hgets⟩ := session_of_step hstep hs
    exact .closed hs' (hgets.closed hclosed) (hgets.isTold htold)
  | missed hmissed => exact .missed (List.mem_append_left _ hmissed)

end Fate

/-- Every session that no connection has put out of the directory has one of these fates. -/
theorem History.fate (h : History callTimeout acts deeds t)
    (hk : (registrations deeds)[k]? = some (i, d))
    (hstays : k ∉ (Traffic.idle callTimeout).collect displaced acts) :
    Fate ((Traffic.idle callTimeout).collect missed acts) t d k := by
  induction h with
  | idle => exact absurd hk (by simp [registrations])
  | step before hstep ih =>
    rw [collect_append displaced before.run, collect_singleton, List.mem_append, not_or] at hstays
    rw [collect_append missed before.run, collect_singleton]
    rcases Option.eq_none_or_eq_some (registrations _)[k]? with hnew | ⟨x, hold⟩
    · obtain ⟨_, _, hlookup, _⟩ := registration_of_step before.kept before.scripts hstep hnew hk
      exact .registered hlookup
    · obtain rfl := Option.some.inj ((registration_append hold _).symm.trans hk)
      exact (ih hold hstays.1).step before hstep hstays.2

/-- A session that a shutdown misses has come after the shutdown made its list. -/
theorem History.missed_late (h : History callTimeout acts deeds t)
    (hmissed : (j, k) ∈ (Traffic.idle callTimeout).collect missed acts) :
    ∃ n, (j, n) ∈ (Traffic.idle callTimeout).collect listing acts ∧ n ≤ k := by
  induction h with
  | idle => exact absurd hmissed List.not_mem_nil
  | @step acts deeds t t' act before hstep ih =>
    rw [collect_append missed before.run, collect_singleton] at hmissed
    rw [collect_append listing before.run, collect_singleton]
    rcases List.mem_append.1 hmissed with hbefore | hnow
    · obtain ⟨n, hmem, hle⟩ := ih hbefore
      exact ⟨n, List.mem_append_left _ hmem, hle⟩
    · unfold missed at hnow
      split at hnow
      · split at hnow
        · next j' _ keys hget =>
          obtain ⟨key, hkey, heq⟩ := List.mem_map.1 hnow
          obtain ⟨rfl, rfl⟩ := Prod.mk.inj heq
          obtain ⟨hregistered, hnot⟩ := List.mem_filter.1 hkey
          obtain ⟨d, hd⟩ := Station.mem_registered.1 hregistered
          obtain ⟨n, hmem, _, hlisted⟩ := before.listed hget
          refine ⟨n, List.mem_append_left _ hmem, Nat.le_of_not_lt fun hlt => ?_⟩
          exact of_decide_eq_true hnot (hlisted d key hlt hd)
        · exact absurd hnow List.not_mem_nil
      · exact absurd hnow List.not_mem_nil

end Traffic

open Traffic

variable {callTimeout : Duration} {t : Traffic} {acts : List Act}

/-- **What becomes of the sessions.** Whoever acts in between, a session that no connection has put
out of the directory is still registered, or a shutdown has put it out and is going to close it, or
it has been told and closed, or a shutdown has missed it. What a shutdown misses are sessions that
were made after its list. Every shutdown can come to its end, as far as there is room for its kill
signals, and then it has nobody left to close. -/
theorem shutdown_accounts_for_sessions (hrun : (Traffic.idle callTimeout).run acts = some t) :
    (∀ k i d, (registrations ((Traffic.idle callTimeout).record acts))[k]? = some (i, d) →
      k ∉ (Traffic.idle callTimeout).collect displaced acts →
      Fate ((Traffic.idle callTimeout).collect missed acts) t d k) ∧
    (∀ j k, (j, k) ∈ (Traffic.idle callTimeout).collect missed acts →
      ∃ n, (j, n) ∈ (Traffic.idle callTimeout).collect listing acts ∧ n ≤ k) ∧
    ∀ j c, t.closings[j]? = some c → CanClose j t := by
  have hhistory := history_of_run hrun
  exact ⟨fun k i d hk hstays => hhistory.fate hk hstays,
    fun j k hmissed => hhistory.missed_late hmissed, fun j c hget => hhistory.can_close hget⟩

/-! ## A registration in between -/

/-- A device introduces itself, and a shutdown makes its list. Then the device is registered, and
the shutdown goes on to its end. -/
def lateArrival (bytes : ByteArray) : List Act :=
  [.accept none, .receive 0 bytes] ++ [.shutdown, .close 0, .perform 0, .close 0]

/-- Then nobody else has put out its session, and its device has not been told. -/
theorem run_lateArrival (b : Wire.FrameBuffer) (bytes : ByteArray)
    (h : Connection.start.receive bytes
      = (⟨b, ⟨⟨.registered, 1⟩, some "cam", true⟩⟩, [.enlist "cam", .announce, .reply .ok])) :
    ∃ t s, (Traffic.idle ⟨1000⟩).run (lateArrival bytes) = some t ∧ t.closings = [.killing []] ∧
      registrations ((Traffic.idle ⟨1000⟩).record (lateArrival bytes)) = [(0, "cam")] ∧
      (Traffic.idle ⟨1000⟩).collect displaced (lateArrival bytes) = [] ∧
      (Traffic.idle ⟨1000⟩).collect missed (lateArrival bytes) = [(0, 0)] ∧
      t.station.lookup? "cam" = none ∧ t.station.session? 0 = some s ∧ s.closed = false ∧
      s.outbox = [] ∧ s.writerOpen = true := by
  have hstart : (Traffic.idle ⟨1000⟩).run [.accept none, .receive 0 bytes]
      = some (arrivals [Connection.start.receive bytes]) := rfl
  rw [h] at hstart
  unfold lateArrival
  rw [run_append, record_append hstart, collect_append _ hstart, collect_append _ hstart, hstart]
  exact ⟨_, _, rfl, rfl, rfl, rfl, rfl, rfl, rfl, rfl, rfl, rfl⟩

/-- What becomes of the session in that run: the shutdown has missed it, and it is the first session
made after a list of none. -/
theorem shutdown_accounts_for_latecomer :
    ∃ bytes t n, (Traffic.idle ⟨1000⟩).run (lateArrival bytes) = some t ∧
      Fate [(0, 0)] t "cam" 0 ∧
      (0, n) ∈ (Traffic.idle ⟨1000⟩).collect listing (lateArrival bytes) ∧ n ≤ 0 := by
  obtain ⟨b, hreceive⟩ := receive_introduction "cam" (by decide)
  generalize (encodeFrame (.register "cam")).toUTF8 = bytes at hreceive
  obtain ⟨t, _, hrun, _, hregistered, hdisplaced, hmissed, _⟩ := run_lateArrival b bytes hreceive
  obtain ⟨hfate, hlate, _⟩ := shutdown_accounts_for_sessions hrun
  rw [hmissed] at hfate hlate
  obtain ⟨n, hlisting, hle⟩ := hlate 0 0 List.mem_cons_self
  refine ⟨bytes, t, n, hrun, hfate 0 0 "cam" ?_ ?_, hlisting, hle⟩
  · rw [hregistered]
    rfl
  · rw [hdisplaced]
    exact List.not_mem_nil

/-- A session that is registered between the two steps stays open when the shutdown is over, though
nobody else has put it out, and its device is not told. -/
theorem latecomer_lost :
    ∃ t s, (Traffic.idle ⟨1000⟩).run (lateArrival (encodeFrame (.register "cam")).toUTF8) = some t ∧
      t.closings = [.killing []] ∧
      registrations ((Traffic.idle ⟨1000⟩).record
        (lateArrival (encodeFrame (.register "cam")).toUTF8)) = [(0, "cam")] ∧
      (Traffic.idle ⟨1000⟩).collect displaced
        (lateArrival (encodeFrame (.register "cam")).toUTF8) = [] ∧
      t.station.lookup? "cam" = none ∧ t.station.session? 0 = some s ∧ s.closed = false ∧
      ¬s.IsTold := by
  obtain ⟨b, hreceive⟩ := receive_introduction "cam" (by decide)
  generalize (encodeFrame (.register "cam")).toUTF8 = bytes at hreceive ⊢
  obtain ⟨t, s, hrun, hover, hregistered, hdisplaced, _, hgone, hs, hopen, houtbox, hwriter⟩ :=
    run_lateArrival b bytes hreceive
  refine ⟨t, s, hrun, hover, hregistered, hdisplaced, hgone, hs, hopen, ?_⟩
  rintro (hmem | hclosed)
  · rw [houtbox] at hmem
    exact absurd hmem List.not_mem_nil
  · exact absurd (hwriter.symm.trans hclosed) (by decide)

end Server

end KeywordRunner
