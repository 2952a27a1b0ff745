import KeywordRunner.Proofs.Server.Keeping

/-!
# Proofs.Server.Outboxes — who hands what to the writer of a session

A message for a device is put at the end of its session's outbox, by the session's own connection or
by the tasks and shutdowns of the host, as long as the writer is there. `Traffic.offered` and
`Traffic.replied` tell what an act has for a session, and `handedTo` collects what the host handed
to its writer in the course of a run.

* **`session_of_step`** — what one step does to a session.
* **`outbox_of_step`** — what it adds to an outbox when the connection does not reply.
-/

namespace KeywordRunner

open Wire (Message)

/-- A session after a step that has some messages for its writer. -/
structure Session.Gets (s : Session) (more : List Message) (s' : Session) : Prop where
  deviceId : s'.deviceId = s.deviceId
  closed : s.closed = true → s'.closed = true
  writerOpen : s'.writerOpen = true → s.writerOpen = true
  outbox : s'.outbox = s.outbox ++ if s.writerOpen then more else []

namespace Session

theorem Gets.of_same {s s' : Session} (hdevice : s'.deviceId = s.deviceId)
    (hclosed : s.closed = true → s'.closed = true)
    (hwriter : s'.writerOpen = true → s.writerOpen = true) (houtbox : s'.outbox = s.outbox) :
    s.Gets [] s' where
  deviceId := hdevice
  closed := hclosed
  writerOpen := hwriter
  outbox := by rw [houtbox, ite_self, List.append_nil]

theorem gets_nothing (s : Session) : s.Gets [] s := .of_same rfl id id rfl

theorem gets_post (s : Session) (m : Message) : s.Gets [m] ((s.post m).getD s) := by
  unfold post
  split
  · next hopen => exact ⟨rfl, id, id, by rw [if_pos hopen]; rfl⟩
  · next hgone => exact ⟨rfl, id, id, by rw [if_neg hgone]; exact (List.append_nil _).symm⟩

theorem gets_close (s : Session) : s.Gets [.killSignal] s.close.1 := by
  have hclose : s.close.1 = (s.post Message.killSignal).getD s := by
    unfold close
    cases s.post Message.killSignal <;> rfl
  rw [hclose]
  exact s.gets_post _

theorem gets_deliver (s : Session) (d : Delivery) : s.Gets [] (s.deliver d) := by
  cases d with
  | hangUp => exact .of_same rfl id id rfl
  | message m =>
    unfold deliver
    dsimp only
    split
    · exact .of_same rfl id id rfl
    · exact s.gets_nothing

theorem gets_markClosed (s : Session) : s.Gets [] s.markClosed := .of_same rfl (fun _ => rfl) id rfl

theorem gets_hangUp (s : Session) : s.Gets [] s.hangUp := .of_same rfl id id rfl

theorem gets_dropWriter (s : Session) : s.Gets [] s.dropWriter :=
  .of_same rfl id (fun h => absurd h (by simp [dropWriter])) rfl

end Session

namespace Server

namespace Station

variable {st : Station} {key k : SessionKey} {f : Session → Session} {s : Session}
  {more : List Message}

theorem gets_update (hs : st.session? k = some s) (hf : s.Gets more (f s)) (key : SessionKey) :
    ∃ s', (st.update key f).session? k = some s' ∧ s.Gets (if key = k then more else []) s' := by
  by_cases hkey : key = k
  · subst hkey
    rw [if_pos rfl]
    exact ⟨f s, session?_update_self hs, hf⟩
  · rw [if_neg hkey]
    exact ⟨s, (session?_update_of_ne hkey).trans hs, s.gets_nothing⟩

end Station

/-! ## What an act has for a session -/

/-- The messages that an effect of a connection has for a session. -/
def Peer.replied (p : Peer) (k : SessionKey) (e : Effect) : List Message :=
  if p.key = some k then repliesOf [e] else []

/-- The message that a task has for a session in its next step. -/
def Visit.offered (k : SessionKey) : Visit → List Message
  | .holding key m => if key = k then [m] else []
  | .seeking .. | .done => []

/-- A shutdown has a kill signal for the session that is its next. -/
def Closing.offered (k : SessionKey) : Closing → List Message
  | .killing (key :: _) => if key = k then [.killSignal] else []
  | .killing [] | .collecting | .clearing _ | .marking _ => []

section Gets

variable {callTimeout : Duration} {st st' : Station} {k : SessionKey} {s : Session} {p : Peer}
  {e : Effect}

theorem Peer.replied_of_nil (h : repliesOf [e] = []) : p.replied k e = [] := by
  rw [Peer.replied, h, ite_self]

theorem gets_onSession {f : Session → Session} (p : Peer) (hs : st.session? k = some s)
    (hf : s.Gets [] (f s)) :
    ∃ s', (p.onSession st f).session? k = some s' ∧ s.Gets [] s' := by
  unfold Peer.onSession
  cases p.key with
  | none => exact ⟨s, hs, s.gets_nothing⟩
  | some key =>
    have hupdate := Station.gets_update hs hf key
    rw [ite_self] at hupdate
    exact hupdate

/-- An effect adds its reply to the session of its own connection. -/
theorem gets_perform (p : Peer) (e : Effect) (hs : st.session? k = some s) :
    ∃ s', (p.perform callTimeout st e).1.session? k = some s' ∧ s.Gets (p.replied k e) s' := by
  cases e with
  | reply m =>
    unfold Peer.perform Peer.replied
    cases p.key with
    | none =>
      rw [if_neg (by simp)]
      exact ⟨s, hs, s.gets_nothing⟩
    | some key =>
      simp only [Option.some.injEq]
      exact Station.gets_update (f := fun s => (s.post m).getD s) hs (s.gets_post m) key
  | enlist deviceId =>
    rw [Peer.replied_of_nil rfl]
    exact ⟨s, (Station.session?_enlist_of_lt (Station.session?_lt hs) _).trans hs, s.gets_nothing⟩
  | unlist =>
    rw [Peer.replied_of_nil rfl]
    unfold Peer.perform
    cases p.key with
    | none => exact ⟨s, hs, s.gets_nothing⟩
    | some key =>
      refine ⟨s, ?_, s.gets_nothing⟩
      show (st.removeSession key).1.sessions[k]? = some s
      rw [Station.sessions_removeSession]
      exact hs
  | announce =>
    rw [Peer.replied_of_nil rfl]
    exact ⟨s, hs, s.gets_nothing⟩
  | complain fault =>
    rw [Peer.replied_of_nil rfl]
    exact ⟨s, hs, s.gets_nothing⟩
  | deliver m =>
    rw [Peer.replied_of_nil rfl]
    exact gets_onSession p hs (s.gets_deliver _)
  | retire =>
    rw [Peer.replied_of_nil rfl]
    exact gets_onSession p hs s.gets_markClosed
  | hangUp =>
    rw [Peer.replied_of_nil rfl]
    exact gets_onSession p hs s.gets_hangUp
  | stopWriter =>
    rw [Peer.replied_of_nil rfl]
    exact gets_onSession p hs s.gets_dropWriter

/-- A task hands over its message when it has found the session. -/
theorem gets_visit {v v' : Visit} (hs : st.session? k = some s)
    (hnext : v.next st = some (st', v')) :
    ∃ s', st'.session? k = some s' ∧ s.Gets (v.offered k) s' := by
  cases v with
  | seeking deviceId m =>
    unfold Visit.next at hnext
    dsimp only at hnext
    split at hnext
    · cases hnext
      exact ⟨s, hs, s.gets_nothing⟩
    · cases hnext
      exact ⟨s, hs, s.gets_nothing⟩
  | holding key m =>
    cases hnext
    exact Station.gets_update (f := fun s => (s.post m).getD s) hs (s.gets_post m) key
  | done => exact absurd hnext (by simp [Visit.next])

/-- A shutdown hands over kill signals, one after the other. -/
theorem gets_closing {c c' : Closing} (hs : st.session? k = some s)
    (hnext : c.next st = some (st', c')) :
    ∃ s', st'.session? k = some s' ∧ s.Gets (c.offered k) s' := by
  cases Traffic.closes_of_next hnext with
  | collect => exact ⟨s, hs, s.gets_nothing⟩
  | clear keys => exact ⟨s, hs, s.gets_nothing⟩
  | kill key keys => exact Station.gets_update hs s.gets_close key
  | mark key keys =>
    have hupdate := Station.gets_update hs s.gets_markClosed key
    rw [ite_self] at hupdate
    exact hupdate

end Gets

namespace Traffic

variable {t t' : Traffic} {act : Act} {acts : List Act} {k : SessionKey} {s : Session}

/-- The messages that the host has for a session in an act. -/
def offered (t : Traffic) (k : SessionKey) : Act → List Message
  | .proceed i => (t.visits[i]?.map (·.offered k)).getD []
  | .close j => (t.closings[j]?.map (·.offered k)).getD []
  | _ => []

/-- The messages that the connection of a session has for it in an act. -/
def replied (t : Traffic) (k : SessionKey) : Act → List Message
  | .perform i =>
    (t.peers[i]?.bind fun p => p.pending.head?.map fun e => p.replied k e).getD []
  | _ => []

/-- **What one step does to a session.** Nothing but these messages gets into its outbox. -/
theorem session_of_step (hstep : t.step act = some t') (hs : t.station.session? k = some s) :
    ∃ s', t'.station.session? k = some s' ∧ s.Gets (t.offered k act ++ t.replied k act) s' := by
  -- what a task does depends on how far it has come, which its rule leaves out
  by_cases hproceed : ∃ i, act = .proceed i
  · obtain ⟨i, rfl⟩ := hproceed
    obtain ⟨v, hget, h⟩ := Option.bind_eq_some_iff.1 hstep
    obtain ⟨⟨station, v'⟩, hnext, rfl⟩ := Option.map_eq_some_iff.1 h
    unfold offered replied
    dsimp only
    rw [hget, Option.map_some, Option.getD_some, List.append_nil]
    exact gets_visit hs hnext
  cases steps_of_step hstep with
  | perform hget hpending =>
    unfold offered replied
    dsimp only
    rw [hget, Option.bind_some, hpending]
    exact gets_perform _ _ hs
  | close hget hnext =>
    unfold offered replied
    dsimp only
    rw [hget, Option.map_some, Option.getD_some, List.append_nil]
    exact gets_closing hs hnext
  | aside haside =>
    have hnone : t.offered k act ++ t.replied k act = [] := by
      cases act with
      | proceed i => exact absurd ⟨i, rfl⟩ hproceed
      | perform i => exact haside.elim
      | close j => exact haside.elim
      | _ => rfl
    rw [hnone]
    exact ⟨s, hs, s.gets_nothing⟩
  | post => exact absurd ⟨_, rfl⟩ hproceed
  | accept address => exact ⟨s, hs, s.gets_nothing⟩
  | receive bytes _ _ _ => exact ⟨s, hs, s.gets_nothing⟩
  | finish _ _ _ => exact ⟨s, hs, s.gets_nothing⟩
  | shutdown => exact ⟨s, hs, s.gets_nothing⟩

/-- No session is ever taken away. -/
theorem session?_of_step_none (hstep : t.step act = some t') (h : t'.station.session? k = none) :
    t.station.session? k = none := by
  rcases Option.eq_none_or_eq_some (t.station.session? k) with hnone | ⟨s, hs⟩
  · exact hnone
  · obtain ⟨s', hs', _⟩ := session_of_step hstep hs
    exact absurd (h.symm.trans hs') (by simp)

/-! ## What the host hands to a writer -/

/-- The messages of the host that the writer of a session takes in an act. -/
def handed (k : SessionKey) (t : Traffic) (act : Act) : List Message :=
  if (t.station.session? k).any (·.writerOpen) then t.offered k act else []

/-- The messages of the host that the writer of a session takes in the course of a list of acts. -/
def handedTo (t : Traffic) (k : SessionKey) (acts : List Act) : List Message :=
  t.collect (handed k) acts

theorem handedTo_append {t₁ : Traffic} (h : t.run acts = some t₁) (more : List Act) :
    t.handedTo k (acts ++ more) = t.handedTo k acts ++ t₁.handedTo k more :=
  collect_append (handed k) h more

theorem handedTo_singleton (t : Traffic) (k : SessionKey) (act : Act) :
    t.handedTo k [act] = t.handed k act := collect_singleton (handed k) t act

variable {callTimeout : Duration} {deeds : List (Nat × Effect)} {i : Nat} {d : String}

/-- Nothing is handed to a session that is yet to be made. -/
theorem History.handedTo_eq_nil (h : History callTimeout acts deeds t)
    (hnone : t.station.session? k = none) : (Traffic.idle callTimeout).handedTo k acts = [] := by
  induction h with
  | idle => rfl
  | step before hstep ih =>
    have hbefore := session?_of_step_none hstep hnone
    rw [handedTo_append before.run, ih hbefore, handedTo_singleton, handed, hbefore]
    rfl

/-- What an act adds to the outbox of a session in which its connection does not reply. -/
theorem outbox_of_step (hstep : t.step act = some t') (hs : t.station.session? k = some s)
    (hquiet : t.replied k act = []) :
    ∃ s', t'.station.session? k = some s' ∧ s'.outbox = s.outbox ++ t.handed k act := by
  obtain ⟨s', hs', hgets⟩ := session_of_step hstep hs
  refine ⟨s', hs', ?_⟩
  rw [hgets.outbox, hquiet, List.append_nil, handed, hs, Option.any_some]

end Traffic

end Server

end KeywordRunner
