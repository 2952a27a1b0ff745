import KeywordRunner.Proofs.Server.Ownership
import KeywordRunner.Proofs.Server.Waits

/-!
# Proofs.Server.Registrations — no registration is slept through

A wait subscribes before it looks, and a registration enters the directory before it is announced.
So whoever sleeps while its device is registered is about to be woken: the registration is still to
be announced. This holds of the directory in the hands of any tasks at all, and of a server, where
the tasks are its connections.

* **`Registry`** — the directory with any number of tasks that register, take out and wait.
* **`Registry.awake_of_run`**, **`History.awake`** — nobody sleeps through a registration.
* **`no_registration_slept_through`** — that, and when a wait ends with nothing, for both.
-/

namespace KeywordRunner.Server

open Wire (Message encodeFrame)

/-! ## The directory in anyone's hands -/

/-- The directory in the hands of any number of tasks. Each may register a session, any number of
times, take one out, and wait for a device. -/
structure Registry where
  station : Station
  /-- The register calls so far: the session of each, and whether the call has returned. -/
  calls : List (SessionKey × Bool)
  /-- Which of these calls the entry of a device id comes from. -/
  origin : Table Nat
  waits : List Wait

namespace Registry

/-- What can happen next. -/
inductive Act where
  /-- A session comes to be. -/
  | connect (s : Session)
  /-- A register call begins: its session enters the directory. -/
  | register (key : SessionKey)
  /-- A register call announces its session and returns. -/
  | announce (call : Nat)
  | removeSession (key : SessionKey)
  | remove (deviceId : String)
  | clear
  | await (deviceId : String)
  | look (wait : Nat)
  | expire (wait : Nat)

def start (st : Station) : Registry := ⟨st, [], ∅, []⟩

def step (r : Registry) : Act → Option Registry
  | .connect s => some { r with station := (r.station.add s).1 }
  | .register key =>
    (r.station.session? key).map fun s =>
      { r with
        station := (r.station.register key).1
        calls := r.calls ++ [(key, false)]
        origin := r.origin.insert s.deviceId r.calls.length }
  | .announce i =>
    r.calls[i]?.bind fun (key, returned) =>
      if returned then none
      else some { r with calls := r.calls.set i (key, true), waits := r.waits.map Wait.wake }
  | .removeSession key => some { r with station := (r.station.removeSession key).1 }
  | .remove deviceId => some { r with station := (r.station.remove deviceId).1 }
  | .clear => some { r with station := r.station.clear }
  | .await deviceId => some { r with waits := r.waits ++ [.start deviceId] }
  | .look i =>
    r.waits[i]?.bind fun w => (w.next r.station).map fun w => { r with waits := r.waits.set i w }
  | .expire i =>
    r.waits[i]?.map fun w => { r with waits := r.waits.set i { w with expired := true } }

def run (r : Registry) (acts : List Act) : Option Registry := acts.foldlM step r

end Registry

namespace Station

variable {st : Station} {d : String} {key k : SessionKey}

theorem lookup?_register {s : Session} (h : st.session? key = some s) (d : String) :
    (st.register key).1.lookup? d = if d = s.deviceId then some key else st.lookup? d := by
  unfold register
  rw [h]
  exact Table.get?_insert st.directory s.deviceId d key

theorem lookup?_of_remove {deviceId : String} (h : (st.remove deviceId).1.lookup? d = some k) :
    st.lookup? d = some k := by
  have hget := (Table.get?_erase st.directory deviceId d).symm.trans h
  split at hget
  · exact absurd hget (by simp)
  · exact hget

theorem lookup?_of_removeSession (h : (st.removeSession key).1.lookup? d = some k) :
    st.lookup? d = some k := by
  cases hs : st.session? key with
  | none =>
    unfold removeSession at h
    rw [hs] at h
    exact h
  | some s =>
    rw [lookup?_removeSession hs] at h
    split at h
    · exact absurd h (by simp)
    · exact h

theorem lookup?_clear (st : Station) (d : String) : st.clear.lookup? d = none := by
  simp [clear, lookup?]

end Station

namespace Registry

variable {r r' : Registry} {act : Act} {acts : List Act} {st : Station}

/-- What an act does to the waits. -/
def event (_ : Registry) : Act → Waiting
  | .announce _ => .announce
  | .await deviceId => .await deviceId
  | .look i => .look i
  | .expire i => .expire i
  | .connect _ | .register _ | .removeSession _ | .remove _ | .clear => .idle

theorem event_eq_look {i : Nat} (h : r.event act = .look i) : act = .look i := by
  cases act with
  | look j => exact congrArg Act.look (Waiting.look.inj h)
  | connect _ | register _ | announce _ | removeSession _ | remove _ | clear | await _ | expire _ =>
    exact absurd h (by simp [event])

theorem event_eq_expire {i : Nat} (h : r.event act = .expire i) : act = .expire i := by
  cases act with
  | expire j => exact congrArg Act.expire (Waiting.expire.inj h)
  | connect _ | register _ | announce _ | removeSession _ | remove _ | clear | await _ | look _ =>
    exact absurd h (by simp [event])

theorem changes_of_step (h : r.step act = some r') :
    (r.event act).Changes r.station r.waits r'.waits := by
  cases act with
  | connect _ | removeSession _ | remove _ | clear =>
    cases h
    exact .idle
  | register key =>
    obtain ⟨_, _, rfl⟩ := Option.map_eq_some_iff.1 h
    exact .idle
  | announce i =>
    obtain ⟨⟨key, returned⟩, _, h⟩ := Option.bind_eq_some_iff.1 h
    cases returned with
    | true => exact absurd h (by simp)
    | false =>
      cases h
      exact .announce
  | await deviceId =>
    cases h
    exact .await deviceId
  | look i =>
    obtain ⟨w, hget, h⟩ := Option.bind_eq_some_iff.1 h
    obtain ⟨w', hnext, rfl⟩ := Option.map_eq_some_iff.1 h
    exact .look hget hnext
  | expire i =>
    obtain ⟨w, hget, rfl⟩ := Option.map_eq_some_iff.1 h
    exact .expire hget

/-- Whether the register call that an entry comes from has not returned. -/
def announcing (r : Registry) (d : String) (key : SessionKey) : Prop :=
  ∃ call, r.origin.get? d = some call ∧ r.calls[call]? = some (key, false)

theorem awake_of_step (h : Awake r.announcing r.station r.waits) (hstep : r.step act = some r') :
    Awake r'.announcing r'.station r'.waits := by
  have hwaits := h.changes (changes_of_step hstep)
  cases act with
  | connect s =>
    cases hstep
    exact h
  | register key =>
    obtain ⟨s, hs, rfl⟩ := Option.map_eq_some_iff.1 hstep
    refine h.enter fun d k hk => ?_
    have hlookup := (Station.lookup?_register hs d).symm.trans hk
    have horigin := Table.get?_insert r.origin s.deviceId d r.calls.length
    by_cases hd : d = s.deviceId
    · -- the entry is the one that this call has just made
      rw [if_pos hd] at hlookup horigin
      cases hlookup
      exact Or.inl ⟨_, horigin, List.getElem?_concat_length⟩
    · rw [if_neg hd] at hlookup horigin
      refine Or.inr ⟨hlookup, fun ⟨call, hcall, hget⟩ => ⟨call, horigin.trans hcall, ?_⟩⟩
      exact Traffic.getElem?_append_of_some hget _
  | announce i =>
    obtain ⟨⟨key, returned⟩, _, h⟩ := Option.bind_eq_some_iff.1 hstep
    cases returned with
    | true => exact absurd h (by simp)
    | false =>
      cases h
      exact Awake.announce _ _ _
  | removeSession key =>
    cases hstep
    exact h.enter fun d k hk => Or.inr ⟨Station.lookup?_of_removeSession hk, id⟩
  | remove deviceId =>
    cases hstep
    exact h.enter fun d k hk => Or.inr ⟨Station.lookup?_of_remove hk, id⟩
  | clear =>
    cases hstep
    refine h.enter fun d k hk => ?_
    exact absurd ((Station.lookup?_clear r.station d).symm.trans hk) (by simp)
  | await deviceId =>
    cases hstep
    exact hwaits
  | look i =>
    obtain ⟨w, _, hnext⟩ := Option.bind_eq_some_iff.1 hstep
    obtain ⟨w', _, rfl⟩ := Option.map_eq_some_iff.1 hnext
    exact hwaits
  | expire i =>
    obtain ⟨w, _, rfl⟩ := Option.map_eq_some_iff.1 hstep
    exact hwaits

theorem awake_of_run (hrun : (start st).run acts = some r) :
    Awake r.announcing r.station r.waits := by
  have hstart : Awake (start st).announcing (start st).station (start st).waits :=
    fun _ hw => absurd hw List.not_mem_nil
  exact holds_of_run (P := fun r => Awake r.announcing r.station r.waits) awake_of_step hstart hrun

end Registry

/-! ## Registrations of connections -/

/-- Behind every registration there is its announcement. -/
def Announces (es : List Effect) : Prop :=
  ∀ deviceId later, Effect.enlist deviceId :: later <:+ es → .announce ∈ later

namespace Announces

variable {es fs : List Effect} {e : Effect} {deviceId : String}

theorem tail (h : Announces (e :: es)) : Announces es :=
  fun deviceId later hsuffix => h deviceId later (hsuffix.trans (List.suffix_cons e es))

theorem cons (he : ∀ deviceId, e = .enlist deviceId → .announce ∈ es) (hes : Announces es) :
    Announces (e :: es) := by
  intro deviceId later hsuffix
  rcases List.suffix_cons_iff.1 hsuffix with heq | hsuffix
  · obtain ⟨rfl, rfl⟩ := List.cons.inj heq
    exact he deviceId rfl
  · exact hes deviceId later hsuffix

theorem of_not_mem (h : ∀ deviceId, .enlist deviceId ∉ es) : Announces es :=
  fun deviceId _ hsuffix => absurd (hsuffix.subset List.mem_cons_self) (h deviceId)

theorem append (hes : Announces es) (hfs : Announces fs) : Announces (es ++ fs) := by
  induction es with
  | nil => exact hfs
  | cons e es ih =>
    refine cons (fun deviceId he => ?_) (ih hes.tail)
    subst he
    exact List.mem_append_left _ (hes deviceId es List.suffix_rfl)

end Announces

theorem enlist_not_mem_proceed (l : Lifecycle) (step : Lifecycle → Except TransitionFault Lifecycle)
    (deviceId : String) : .enlist deviceId ∉ (l.proceed step).2 := by
  unfold Lifecycle.proceed
  split <;> simp

theorem announces_handle (d : Dialogue) (m : Message) : Announces (d.handle m).2 := by
  unfold Dialogue.handle
  -- only an introduction registers anything
  split
  · unfold Dialogue.introduce
    split
    · exact .of_not_mem (by simp)
    · split
      · exact .of_not_mem (by simp)
      · exact .cons (fun _ _ => List.mem_cons_self) (.of_not_mem (by simp))
  · split
    · exact .of_not_mem (enlist_not_mem_proceed _ _)
    · split <;> exact .of_not_mem (by simp)
  · exact .of_not_mem (by simp)
  · exact .of_not_mem (by simp)

theorem announces_handleAll (d : Dialogue) (ms : List Message) : Announces (d.handleAll ms).2 := by
  induction ms generalizing d with
  | nil => exact .of_not_mem (by simp [Dialogue.handleAll])
  | cons m ms ih => exact (announces_handle d m).append (ih _)

theorem announces_receive (c : Connection) (bytes : ByteArray) : Announces (c.receive bytes).2 := by
  unfold Connection.receive
  split
  · have hdrain := (Connection.drain_eq { c with buffer := c.buffer.feed bytes }).1
    rw [(Prod.mk.inj hdrain).2]
    exact announces_handleAll _ _
  · exact .of_not_mem (by simp)

theorem announces_finish (c : Connection) : Announces c.finish.2 := by
  refine .of_not_mem fun deviceId hmem => ?_
  have hfinish : .enlist deviceId ∈ c.dialogue.finish.2 := hmem
  simp only [Dialogue.finish, List.mem_append] at hfinish
  rcases hfinish with (((hcomplaint | hteardown) | hsilence) | hcomplaint) | hlast
  · split at hcomplaint
    · exact enlist_not_mem_proceed _ _ _ hcomplaint
    · exact absurd hcomplaint List.not_mem_nil
  · split at hteardown <;> exact absurd hteardown (by simp)
  · split at hsilence <;> exact absurd hsilence (by simp)
  · exact enlist_not_mem_proceed _ _ _ hcomplaint
  · exact absurd hlast (by simp)

namespace Traffic

variable {callTimeout : Duration} {t t' : Traffic} {act : Act} {acts : List Act}
  {deeds : List (Nat × Effect)} {i : Nat} {p : Peer}

/-- Whatever a connection is about to register, it is about to announce. -/
theorem announces_of_step (h : ∀ p ∈ t.peers, Announces p.pending) (hsteps : t.Steps act t') :
    ∀ p ∈ t'.peers, Announces p.pending := by
  have hset : ∀ {i : Nat} {q : Peer}, Announces q.pending →
      ∀ p ∈ t.peers.set i q, Announces p.pending := by
    intro i q hq p hp
    rcases List.mem_or_eq_of_mem_set hp with hold | rfl
    · exact h p hold
    · exact hq
  cases hsteps with
  | accept address =>
    refine List.forall_mem_append.2 ⟨h, fun p hp => ?_⟩
    rw [List.mem_singleton.1 hp]
    exact .of_not_mem (by simp [Peer.accept])
  | receive bytes hget _ _ => exact hset (announces_receive _ bytes)
  | finish hget _ _ => exact hset (announces_finish _)
  | perform hget hpending =>
    refine hset ?_
    rw [perform_pending]
    exact (hpending ▸ h _ (List.mem_of_getElem? hget)).tail
  | shutdown | close _ _ | aside _ | post => exact h

theorem History.announces (h : History callTimeout acts deeds t) :
    ∀ p ∈ t.peers, Announces p.pending := by
  induction h with
  | idle => exact fun _ hp => absurd hp List.not_mem_nil
  | step _ hstep ih => exact announces_of_step ih (steps_of_step hstep)

/-- What an act does to the waits. -/
def event (t : Traffic) : Act → Waiting
  | .perform i =>
    match t.peers[i]?.bind (·.pending.head?) with
    | some .announce => .announce
    | _ => .idle
  | .await deviceId => .await deviceId
  | .look i => .look i
  | .expire i => .expire i
  | .accept _ | .receive .. | .finish _ | .shutdown | .close _ | .visit .. | .proceed _ => .idle

theorem event_eq_look (h : t.event act = .look i) : act = .look i := by
  cases act with
  | look j => exact congrArg Act.look (Waiting.look.inj h)
  | perform j =>
    unfold event at h
    dsimp only at h
    split at h <;> exact absurd h (by simp)
  | accept _ | receive _ _ | finish _ | await _ | expire _ | shutdown | close _ | visit _ _
  | proceed _ => exact absurd h (by simp [event])

theorem event_eq_expire (h : t.event act = .expire i) : act = .expire i := by
  cases act with
  | expire j => exact congrArg Act.expire (Waiting.expire.inj h)
  | perform j =>
    unfold event at h
    dsimp only at h
    split at h <;> exact absurd h (by simp)
  | accept _ | receive _ _ | finish _ | await _ | look _ | shutdown | close _ | visit _ _
  | proceed _ => exact absurd h (by simp [event])

theorem changes_of_step (h : t.step act = some t') :
    (t.event act).Changes t.station t.waits t'.waits := by
  cases act with
  | accept _ | shutdown | visit _ _ =>
    cases h
    exact .idle
  | receive i bytes =>
    obtain ⟨p, _, h⟩ := Option.bind_eq_some_iff.1 h
    split at h
    · cases h
      exact .idle
    · exact absurd h (by simp)
  | finish i =>
    obtain ⟨p, _, h⟩ := Option.bind_eq_some_iff.1 h
    split at h
    · cases h
      exact .idle
    · exact absurd h (by simp)
  | perform i =>
    obtain ⟨p, hget, h⟩ := Option.bind_eq_some_iff.1 h
    cases hpending : p.pending with
    | nil =>
      rw [hpending] at h
      exact absurd h (by simp)
    | cons e later =>
      rw [hpending] at h
      obtain rfl := Option.some.inj h
      have hhead : t.peers[i]?.bind (·.pending.head?) = some e := by
        rw [hget, Option.bind_some, hpending]
        rfl
      unfold event
      dsimp only
      rw [hhead]
      cases e with
      | announce => exact .announce
      | _ => exact .idle
  | await deviceId =>
    cases h
    exact .await deviceId
  | look i =>
    obtain ⟨w, hget, h⟩ := Option.bind_eq_some_iff.1 h
    obtain ⟨w', hnext, rfl⟩ := Option.map_eq_some_iff.1 h
    exact .look hget hnext
  | expire i =>
    obtain ⟨w, hget, rfl⟩ := Option.map_eq_some_iff.1 h
    exact .expire hget
  | close i =>
    obtain ⟨_, _, h⟩ := Option.bind_eq_some_iff.1 h
    obtain ⟨_, _, rfl⟩ := Option.map_eq_some_iff.1 h
    exact .idle
  | proceed i =>
    obtain ⟨_, _, h⟩ := Option.bind_eq_some_iff.1 h
    obtain ⟨_, _, rfl⟩ := Option.map_eq_some_iff.1 h
    exact .idle

/-- Whether the connection that registered a session has yet to announce it. -/
def announcing (t : Traffic) (key : SessionKey) : Prop :=
  ∃ p ∈ t.peers, p.key = some key ∧ .announce ∈ p.pending

/-- A connection does something, but does not announce: what was to be announced still is. -/
theorem announcing_set {q : Peer} {key : SessionKey} (hget : t.peers[i]? = some p)
    (hq : p.key = some key → .announce ∈ p.pending → q.key = some key ∧ .announce ∈ q.pending)
    (h : t.announcing key) :
    ∃ p ∈ t.peers.set i q, p.key = some key ∧ .announce ∈ p.pending := by
  obtain ⟨r, hr, hkey, hannounce⟩ := h
  obtain ⟨j, hj⟩ := List.mem_iff_getElem?.1 hr
  by_cases hij : i = j
  · subst hij
    cases hget.symm.trans hj
    exact ⟨q, List.mem_set (List.getElem?_eq_some_iff.1 hget).1 q, hq hkey hannounce⟩
  · exact ⟨r, List.mem_of_getElem? ((List.getElem?_set_ne hij).trans hj), hkey, hannounce⟩

theorem perform_key {e : Effect} (p : Peer) (st : Station) (h : ∀ deviceId, e ≠ .enlist deviceId) :
    (p.perform callTimeout st e).2.key = p.key := by
  cases e with
  | enlist deviceId => exact absurd rfl (h deviceId)
  | reply m => unfold Peer.perform; cases hkey : p.key <;> simp [hkey]
  | unlist => unfold Peer.perform; cases hkey : p.key <;> simp [hkey]
  | _ => rfl

/-- A connection that has a session does not register another one. -/
theorem key_eq_none_of_enlist (hkept : Kept deeds t) (hscripts : InStep acts deeds t)
    (hget : t.peers[i]? = some p) {deviceId : String} {later : List Effect}
    (hpending : p.pending = .enlist deviceId :: later) : p.key = none := by
  obtain ⟨more, ms, hms⟩ := hscripts.conversation hget
  rw [hpending, List.cons_append] at hms
  exact hkept.key_eq_none hget (reply_of_mem_before_enlist hms)

/-- A connection performs an effect other than an announcement. What it registers it has yet to
announce. -/
theorem entries_of_perform (hkept : Kept deeds t) (hscripts : InStep acts deeds t)
    (hannounces : ∀ p ∈ t.peers, Announces p.pending) {e : Effect} {later : List Effect}
    (hget : t.peers[i]? = some p) (hpending : p.pending = e :: later) (he : e ≠ .announce)
    (hstation : t'.station
      = (Peer.perform { p with pending := later } t.callTimeout t.station e).1)
    (hpeers : t'.peers
      = t.peers.set i (Peer.perform { p with pending := later } t.callTimeout t.station e).2) :
    (∀ d key, t'.station.lookup? d = some key →
      t.station.lookup? d = some key ∨ t'.announcing key) ∧
    ∀ key, t.announcing key → t'.announcing key := by
  unfold announcing
  rw [hstation, hpeers]
  by_cases henlist : ∃ deviceId, e = .enlist deviceId
  · obtain ⟨deviceId, rfl⟩ := henlist
    have hmem : .announce ∈ later :=
      hannounces p (List.mem_of_getElem? hget) deviceId later (hpending ▸ List.suffix_rfl)
    have hi := (List.getElem?_eq_some_iff.1 hget).1
    constructor
    · intro d key hd
      have hlookup := (Station.lookup?_enlist t.station { Session.connect deviceId p.address
        t.callTimeout with outbox := p.replies } d).symm.trans hd
      split at hlookup
      · exact Or.inr ⟨_, List.mem_set hi _, hlookup, hmem⟩
      · exact Or.inl hlookup
    · intro key hkey
      refine announcing_set hget (fun hsome _ => ?_) hkey
      rw [key_eq_none_of_enlist hkept hscripts hget hpending] at hsome
      exact absurd hsome (by simp)
  · have hother : ∀ deviceId, e ≠ .enlist deviceId := fun deviceId he => henlist ⟨deviceId, he⟩
    constructor
    · intro d key hd
      refine Or.inl ?_
      by_cases hunlist : e = .unlist
      · subst hunlist
        unfold Peer.perform at hd
        dsimp only at hd
        split at hd
        · exact hd
        · exact Station.lookup?_of_removeSession hd
      · rw [lookup?_perform _ _ hother hunlist] at hd
        exact hd
    · intro key hkey
      refine announcing_set hget (fun hsome hannounce => ?_) hkey
      rw [perform_key _ _ hother, perform_pending]
      rw [hpending] at hannounce
      exact ⟨hsome, (List.mem_cons.1 hannounce).resolve_left (Ne.symm he)⟩

theorem lookup?_of_closes {st st' : Station} {c c' : Closing} {d : String} {key : SessionKey}
    (h : Closes st c st' c') (hd : st'.lookup? d = some key) : st.lookup? d = some key := by
  cases h with
  | clear keys => exact absurd ((Station.lookup?_clear st d).symm.trans hd) (by simp)
  | collect | kill _ _ | mark _ _ => exact hd

/-- In a step in which nothing is announced, every new entry is yet to be announced, and so is what
was to be announced before. -/
theorem entries_of_step (hkept : Kept deeds t) (hscripts : InStep acts deeds t)
    (hannounces : ∀ p ∈ t.peers, Announces p.pending) (hsteps : t.Steps act t')
    (hevent : t.event act ≠ .announce) :
    (∀ d key, t'.station.lookup? d = some key →
      t.station.lookup? d = some key ∨ t'.announcing key) ∧
    ∀ key, t.announcing key → t'.announcing key := by
  cases hsteps with
  | accept address =>
    refine ⟨fun d key hd => Or.inl hd, fun key ⟨p, hp, hkey⟩ => ?_⟩
    exact ⟨p, List.mem_append_left _ hp, hkey⟩
  | receive bytes hget hidle _ =>
    refine ⟨fun d key hd => Or.inl hd, fun key hkey => ?_⟩
    refine announcing_set hget (fun _ hannounce => ?_) hkey
    rw [hidle] at hannounce
    exact absurd hannounce List.not_mem_nil
  | finish hget hidle _ =>
    refine ⟨fun d key hd => Or.inl hd, fun key hkey => ?_⟩
    refine announcing_set hget (fun _ hannounce => ?_) hkey
    rw [hidle] at hannounce
    exact absurd hannounce List.not_mem_nil
  | @perform i p e later ws hget hpending =>
    have he : e ≠ .announce := by
      rintro rfl
      refine hevent ?_
      have hhead : t.peers[i]?.bind (·.pending.head?) = some .announce := by
        rw [hget, Option.bind_some, hpending]
        rfl
      unfold event
      dsimp only
      rw [hhead]
    exact entries_of_perform hkept hscripts hannounces hget hpending he rfl rfl
  | close hget hnext =>
    exact ⟨fun d key hd => Or.inl (lookup?_of_closes (closes_of_next hnext) hd), fun _ hkey => hkey⟩
  | shutdown | aside _ | post => exact ⟨fun d key hd => Or.inl hd, fun _ hkey => hkey⟩

theorem awake_of_step (h : Awake (fun _ => t.announcing) t.station t.waits) (hkept : Kept deeds t)
    (hscripts : InStep acts deeds t) (hannounces : ∀ p ∈ t.peers, Announces p.pending)
    (hstep : t.step act = some t') : Awake (fun _ => t'.announcing) t'.station t'.waits := by
  have hchanges := changes_of_step hstep
  by_cases hevent : t.event act = .announce
  · rw [hevent] at hchanges
    generalize t'.waits = ws at hchanges
    cases hchanges
    exact Awake.announce _ _ _
  · obtain ⟨hlookup, hkeep⟩ :=
      entries_of_step hkept hscripts hannounces (steps_of_step hstep) hevent
    refine (h.changes hchanges).enter fun d key hd => ?_
    exact (hlookup d key hd).symm.imp_right fun hold => ⟨hold, hkeep key⟩

theorem History.awake (h : History callTimeout acts deeds t) :
    Awake (fun _ => t.announcing) t.station t.waits := by
  induction h with
  | idle => exact fun _ hw => absurd hw List.not_mem_nil
  | step before hstep ih => exact awake_of_step ih before.kept before.scripts before.announces hstep

end Traffic

/-! ## No registration is slept through -/

/-- **No registration is slept through**, whoever registers, takes out and waits in whatever order:
if a wait sleeps and has not been woken while its device is registered, then the registration that
the entry comes from is still to be announced. And a wait ends with nothing only by a look that it
takes after its time has run out, at a moment when its device is not registered. -/
theorem no_registration_slept_through :
    (∀ (st : Station) (acts : List Registry.Act) (r : Registry),
      (Registry.start st).run acts = some r →
      (∀ w ∈ r.waits, w.stage = .parked false → ∀ key, r.station.lookup? w.deviceId = some key →
        ∃ call, r.origin.get? w.deviceId = some call ∧ r.calls[call]? = some (key, false)) ∧
      ∀ (i : Nat) (w : Wait), r.waits[i]? = some w → w.stage = .ended none →
        ∃ before after r₁ w₁, acts = before ++ .look i :: after ∧ .expire i ∈ before ∧
          (Registry.start st).run before = some r₁ ∧ r₁.waits[i]? = some w₁ ∧
          w₁.deviceId = w.deviceId ∧ w₁.stage = .lastLook ∧
          r₁.station.lookup? w.deviceId = none) ∧
    ∀ (callTimeout : Duration) (acts : List Traffic.Act) (t : Traffic),
      (Traffic.idle callTimeout).run acts = some t →
      (∀ w ∈ t.waits, w.stage = .parked false → ∀ key, t.station.lookup? w.deviceId = some key →
        ∃ p ∈ t.peers, p.key = some key ∧ .announce ∈ p.pending) ∧
      ∀ (i : Nat) (w : Wait), t.waits[i]? = some w → w.stage = .ended none →
        ∃ before after t₁ w₁, acts = before ++ .look i :: after ∧ .expire i ∈ before ∧
          (Traffic.idle callTimeout).run before = some t₁ ∧ t₁.waits[i]? = some w₁ ∧
          w₁.deviceId = w.deviceId ∧ w₁.stage = .lastLook ∧
          t₁.station.lookup? w.deviceId = none := by
  refine ⟨fun st acts r hrun => ⟨Registry.awake_of_run hrun, fun i w hget hstage => ?_⟩,
    fun callTimeout acts t hrun => ⟨(Traffic.history_of_run hrun).awake, fun i w hget hstage => ?_⟩⟩
  · obtain ⟨before, act, after, r₁, w₁, hacts, hbefore, hevent, hw₁, hdevice, hlast, hnone, act',
        hmem, r₂, hevent'⟩ :=
      ended_with_nothing Registry.station Registry.waits Registry.event Registry.changes_of_step rfl
        hrun hget hstage
    rw [Registry.event_eq_look hevent] at hacts
    rw [Registry.event_eq_expire hevent'] at hmem
    exact ⟨before, after, r₁, w₁, hacts, hmem, hbefore, hw₁, hdevice, hlast, hnone⟩
  · obtain ⟨before, act, after, t₁, w₁, hacts, hbefore, hevent, hw₁, hdevice, hlast, hnone, act',
        hmem, t₂, hevent'⟩ :=
      ended_with_nothing Traffic.station Traffic.waits Traffic.event Traffic.changes_of_step rfl
        hrun hget hstage
    rw [Traffic.event_eq_look hevent] at hacts
    rw [Traffic.event_eq_expire hevent'] at hmem
    exact ⟨before, after, t₁, w₁, hacts, hmem, hbefore, hw₁, hdevice, hlast, hnone⟩

/-- A wait falls asleep, and then a connection begins to register. -/
theorem run_parked (b : Wire.FrameBuffer) (bytes : ByteArray)
    (h : Connection.start.receive bytes
      = (⟨b, ⟨⟨.registered, 1⟩, some "cam", true⟩⟩, [.enlist "cam", .announce, .reply .ok])) :
    ∃ t, (Traffic.idle ⟨1000⟩).run [.accept none, .accept none, .receive 0 bytes,
        .receive 1 bytes, .await "cam", .look 0, .look 0, .perform 0] = some t ∧
      t.waits = [⟨"cam", false, .parked false⟩] ∧ t.station.lookup? "cam" = some 0 := by
  have hstart : (Traffic.idle ⟨1000⟩).run
      [.accept none, .accept none, .receive 0 bytes, .receive 1 bytes]
        = some (rivals (Connection.start.receive bytes).1
          (Connection.start.receive bytes).2) := rfl
  rw [h] at hstart
  have hrun := Traffic.run_append (Traffic.idle ⟨1000⟩)
    [.accept none, .accept none, .receive 0 bytes, .receive 1 bytes]
    [.await "cam", .look 0, .look 0, .perform 0]
  rw [hstart] at hrun
  exact ⟨_, hrun, rfl, rfl⟩

/-- Three waits for a camera. One sleeps while the camera is registered again, another one while a
connection registers it, and neither registration has been announced. The third one ends with
nothing, late and without the camera. -/
theorem registration_about_to_be_announced :
    (∃ r call, (Registry.start ⟨[.connect "cam" none ⟨5⟩], ∅⟩).run
        [.register 0, .announce 0, .removeSession 0, .await "cam", .look 0, .look 0, .register 0]
          = some r ∧
      r.waits = [⟨"cam", false, .parked false⟩] ∧ r.station.lookup? "cam" = some 0 ∧
      r.origin.get? "cam" = some call ∧ r.calls[call]? = some (0, false)) ∧
    (∃ bytes t p, (Traffic.idle ⟨1000⟩).run [.accept none, .accept none, .receive 0 bytes,
        .receive 1 bytes, .await "cam", .look 0, .look 0, .perform 0] = some t ∧
      t.waits = [⟨"cam", false, .parked false⟩] ∧ t.station.lookup? "cam" = some 0 ∧
      p ∈ t.peers ∧ p.key = some 0 ∧ .announce ∈ p.pending) ∧
    ∃ r before after r₁ w₁, (Registry.start .empty).run
        [.await "cam", .look 0, .look 0, .expire 0, .look 0, .look 0] = some r ∧
      r.waits = [⟨"cam", true, .ended none⟩] ∧
      [.await "cam", .look 0, .look 0, .expire 0, .look 0, .look 0] = before ++ .look 0 :: after ∧
      .expire 0 ∈ before ∧ (Registry.start .empty).run before = some r₁ ∧
      r₁.waits[0]? = some w₁ ∧ w₁.stage = .lastLook ∧ r₁.station.lookup? "cam" = none := by
  obtain ⟨hregistry, htraffic⟩ := no_registration_slept_through
  refine ⟨?_, ?_, ?_⟩
  · have hrun : (Registry.start ⟨[.connect "cam" none ⟨5⟩], ∅⟩).run
        [.register 0, .announce 0, .removeSession 0, .await "cam", .look 0, .look 0, .register 0]
          = some ⟨⟨[.connect "cam" none ⟨5⟩], (∅ : Directory).insert "cam" 0⟩,
            [(0, true), (0, false)], (∅ : Table Nat).insert "cam" 1,
            [⟨"cam", false, .parked false⟩]⟩ := rfl
    obtain ⟨call, horigin, hcall⟩ :=
      (hregistry _ _ _ hrun).1 _ (List.mem_singleton_self _) rfl 0 rfl
    exact ⟨_, call, hrun, rfl, rfl, horigin, hcall⟩
  · obtain ⟨b, hreceive⟩ := receive_introduction "cam" (by decide)
    generalize (encodeFrame (.register "cam")).toUTF8 = bytes at hreceive
    obtain ⟨t, hrun, hwaits, hlookup⟩ := run_parked b bytes hreceive
    obtain ⟨p, hp, hkey, hannounce⟩ :=
      (htraffic _ _ t hrun).1 _ (hwaits ▸ List.mem_singleton_self _) rfl 0 hlookup
    exact ⟨bytes, t, p, hrun, hwaits, hlookup, hp, hkey, hannounce⟩
  · have hrun : (Registry.start .empty).run
        [.await "cam", .look 0, .look 0, .expire 0, .look 0, .look 0]
          = some ⟨.empty, [], ∅, [⟨"cam", true, .ended none⟩]⟩ := rfl
    obtain ⟨before, after, r₁, w₁, hacts, hmem, hbefore, hw₁, _, hlast, hnone⟩ :=
      (hregistry _ _ _ hrun).2 0 _ rfl rfl
    exact ⟨_, before, after, r₁, w₁, hrun, rfl, hacts, hmem, hbefore, hw₁, hlast, hnone⟩

end KeywordRunner.Server
