import KeywordRunner.Proofs.Server.Conversation
import KeywordRunner.Server.Traffic
import Mathlib.Data.List.Induction

/-!
# Proofs.Server.Steps — what the parties at a server can do

The steps of connections, tasks and shutdowns as rules, so that an invariant is a case analysis over
the rules and no proof opens `Traffic.step`; and the history of a run, which records what each
connection did in which order.

* **`Traffic.Steps`** — the rules.
* **`Traffic.History`** — a run from an idle server, with what was done.
* **`History.scripts`** — what a connection has done and has yet to do is told by the bytes it has
  received, and is a beginning of some conversation.
-/

namespace KeywordRunner.Server

open Wire (Message)

namespace Traffic

variable {callTimeout : Duration} {t t' : Traffic} {act : Act} {acts : List Act}
  {deeds : List (Nat × Effect)} {i j : Nat} {p : Peer}

/-! ## The rules -/

/-- What happens beside the connections and the sessions. -/
def Act.IsAside : Act → Prop
  | .await _ | .look _ | .expire _ | .visit .. | .proceed _ => True
  | .accept _ | .receive .. | .finish _ | .perform _ | .shutdown | .close _ => False

/-- What each act does to everyone. -/
inductive Steps (t : Traffic) : Act → Traffic → Prop where
  | accept (address : Option SocketAddress) :
      Steps t (.accept address) { t with peers := t.peers ++ [.accept address] }
  | receive {i : Nat} {p : Peer} (bytes : ByteArray) (hget : t.peers[i]? = some p)
      (hidle : p.pending = []) (hlistens : p.connection.dialogue.isListening = true) :
      Steps t (.receive i bytes) { t with
        peers := t.peers.set i { p with
          connection := (p.connection.receive bytes).1
          pending := (p.connection.receive bytes).2 } }
  | finish {i : Nat} {p : Peer} (hget : t.peers[i]? = some p) (hidle : p.pending = [])
      (hopen : p.connection.dialogue.lifecycle.phase ≠ .closed) :
      Steps t (.finish i) { t with
        peers := t.peers.set i { p with
          connection := p.connection.finish.1
          pending := p.connection.finish.2 } }
  | perform {i : Nat} {p : Peer} {e : Effect} {later : List Effect} {waits : List Wait}
      (hget : t.peers[i]? = some p) (hpending : p.pending = e :: later) :
      Steps t (.perform i) { t with
        station := (Peer.perform { p with pending := later } t.callTimeout t.station e).1
        peers := t.peers.set i
          (Peer.perform { p with pending := later } t.callTimeout t.station e).2
        waits := waits }
  | shutdown : Steps t .shutdown { t with closings := t.closings ++ [.collecting] }
  | close {i : Nat} {c c' : Closing} {station : Station} (hget : t.closings[i]? = some c)
      (hnext : c.next t.station = some (station, c')) :
      Steps t (.close i) { t with station := station, closings := t.closings.set i c' }
  | aside {act : Act} {waits : List Wait} {visits : List Visit} (haside : act.IsAside) :
      Steps t act { t with waits := waits, visits := visits }
  | post {i : Nat} {key : SessionKey} {m : Message} {visits : List Visit} :
      Steps t (.proceed i) { t with
        station := t.station.update key fun s => (s.post m).getD s
        visits := visits }

theorem steps_of_perform (h : t.perform i = some t') : t.Steps (.perform i) t' := by
  obtain ⟨p, hget, h⟩ := Option.bind_eq_some_iff.1 h
  cases hpending : p.pending with
  | nil =>
    rw [hpending] at h
    exact absurd h (by simp)
  | cons e later =>
    rw [hpending] at h
    obtain rfl := Option.some.inj h
    exact .perform hget hpending

theorem steps_of_step (h : t.step act = some t') : t.Steps act t' := by
  cases act with
  | accept address =>
    obtain rfl := Option.some.inj h
    exact .accept address
  | receive i bytes =>
    obtain ⟨p, hget, h⟩ := Option.bind_eq_some_iff.1 h
    by_cases hready : (p.pending.isEmpty && p.connection.dialogue.isListening) = true
    · obtain ⟨hidle, hlistens⟩ := Bool.and_eq_true_iff.1 hready
      rw [if_pos hready] at h
      obtain rfl := Option.some.inj h
      exact .receive bytes hget (List.isEmpty_iff.1 hidle) hlistens
    · rw [if_neg hready] at h
      exact absurd h (by simp)
  | finish i =>
    obtain ⟨p, hget, h⟩ := Option.bind_eq_some_iff.1 h
    by_cases hready :
        (p.pending.isEmpty && !p.connection.dialogue.lifecycle.phase.isTerminal) = true
    · obtain ⟨hidle, hopen⟩ := Bool.and_eq_true_iff.1 hready
      rw [if_pos hready] at h
      obtain rfl := Option.some.inj h
      exact .finish hget (List.isEmpty_iff.1 hidle) (by simpa [Phase.isTerminal] using hopen)
    · rw [if_neg hready] at h
      exact absurd h (by simp)
  | perform i => exact steps_of_perform h
  | await deviceId =>
    obtain rfl := Option.some.inj h
    exact .aside trivial
  | look i =>
    obtain ⟨w, _, h⟩ := Option.bind_eq_some_iff.1 h
    obtain ⟨w', _, rfl⟩ := Option.map_eq_some_iff.1 h
    exact .aside trivial
  | expire i =>
    obtain ⟨w, _, rfl⟩ := Option.map_eq_some_iff.1 h
    exact .aside trivial
  | shutdown =>
    obtain rfl := Option.some.inj h
    exact .shutdown
  | close i =>
    obtain ⟨c, hget, h⟩ := Option.bind_eq_some_iff.1 h
    obtain ⟨⟨station, c'⟩, hnext, rfl⟩ := Option.map_eq_some_iff.1 h
    exact .close hget hnext
  | visit deviceId m =>
    obtain rfl := Option.some.inj h
    exact .aside trivial
  | proceed i =>
    obtain ⟨v, _, h⟩ := Option.bind_eq_some_iff.1 h
    obtain ⟨⟨station, v'⟩, hnext, rfl⟩ := Option.map_eq_some_iff.1 h
    cases v with
    | seeking deviceId m =>
      unfold Visit.next at hnext
      dsimp only at hnext
      split at hnext
      · cases hnext
        exact .aside trivial
      · cases hnext
        exact .aside trivial
    | holding key m =>
      cases hnext
      exact .post
    | done => exact absurd hnext (by simp [Visit.next])

/-- What a shutdown does to the station. -/
inductive Closes (st : Station) : Closing → Station → Closing → Prop where
  | collect : Closes st .collecting st (.clearing st.registered)
  | clear (keys : List SessionKey) : Closes st (.clearing keys) st.clear (.killing keys)
  | kill (key : SessionKey) (keys : List SessionKey) :
      Closes st (.killing (key :: keys)) (st.sendKill key) (.marking (key :: keys))
  | mark (key : SessionKey) (keys : List SessionKey) :
      Closes st (.marking (key :: keys)) (st.markClosed key) (.killing keys)

theorem closes_of_next {c c' : Closing} {st st' : Station} (h : c.next st = some (st', c')) :
    Closes st c st' c' := by
  cases c with
  | collecting =>
    cases h
    exact .collect
  | clearing keys =>
    cases h
    exact .clear keys
  | killing keys =>
    cases keys with
    | nil => exact absurd h (by simp [Closing.next])
    | cons key keys =>
      cases h
      exact .kill key keys
  | marking keys =>
    cases keys with
    | nil => exact absurd h (by simp [Closing.next])
    | cons key keys =>
      cases h
      exact .mark key keys

/-! ## Histories -/

/-- The effect that an act performs, with the connection that performs it. -/
def deed (t : Traffic) : Act → List (Nat × Effect)
  | .perform i => (t.peers[i]?.bind (·.pending.head?)).toList.map fun e => (i, e)
  | _ => []

/-- A run from an idle server: the acts, what connections did in them, and what came of it. -/
inductive History (callTimeout : Duration) :
    List Act → List (Nat × Effect) → Traffic → Prop where
  | idle : History callTimeout [] [] (idle callTimeout)
  | step {acts : List Act} {deeds : List (Nat × Effect)} {t t' : Traffic} {act : Act}
      (before : History callTimeout acts deeds t) (hstep : t.step act = some t') :
      History callTimeout (acts ++ [act]) (deeds ++ t.deed act) t'

theorem run_append (t : Traffic) (acts more : List Act) :
    t.run (acts ++ more) = (t.run acts).bind fun t => t.run more := List.foldlM_append

theorem run_singleton (t : Traffic) (act : Act) : t.run [act] = t.step act := by
  show (t.step act).bind some = t.step act
  cases t.step act <;> rfl

/-- What is noted of each act, in the course of a list of acts. -/
def collect {α : Type} (note : Traffic → Act → List α) (t : Traffic) : List Act → List α
  | [] => []
  | act :: acts =>
    note t act ++
      match t.step act with
      | some t => t.collect note acts
      | none => []

section Collect

variable {α : Type} (note : Traffic → Act → List α)

theorem collect_append {t₁ : Traffic} (h : t.run acts = some t₁) (more : List Act) :
    t.collect note (acts ++ more) = t.collect note acts ++ t₁.collect note more := by
  induction acts generalizing t with
  | nil =>
    obtain rfl := Option.some.inj h
    rfl
  | cons first acts ih =>
    obtain ⟨t₂, hstep, hrun⟩ := Option.bind_eq_some_iff.1 h
    rw [List.cons_append, collect, collect, hstep]
    dsimp only
    rw [ih hrun, List.append_assoc]

theorem collect_singleton (t : Traffic) (act : Act) : t.collect note [act] = note t act := by
  rw [collect]
  cases t.step act <;> exact List.append_nil _

end Collect

/-- What connections do in the course of a list of acts. -/
def record (t : Traffic) : List Act → List (Nat × Effect)
  | [] => []
  | act :: acts =>
    t.deed act ++
      match t.step act with
      | some t => t.record acts
      | none => []

theorem record_eq_collect (t : Traffic) (acts : List Act) :
    t.record acts = t.collect deed acts := by
  induction acts generalizing t with
  | nil => rfl
  | cons act acts ih =>
    rw [record, collect]
    cases t.step act with
    | none => rfl
    | some t₁ => exact congrArg (t.deed act ++ ·) (ih t₁)

theorem record_append {t₁ : Traffic} (h : t.run acts = some t₁) (more : List Act) :
    t.record (acts ++ more) = t.record acts ++ t₁.record more := by
  rw [record_eq_collect, record_eq_collect, record_eq_collect]
  exact collect_append deed h more

theorem record_singleton (t : Traffic) (act : Act) : t.record [act] = t.deed act := by
  rw [record_eq_collect]
  exact collect_singleton deed t act

/-- Every run has its history. -/
theorem history_of_run (h : (Traffic.idle callTimeout).run acts = some t) :
    History callTimeout acts ((Traffic.idle callTimeout).record acts) t := by
  induction acts using List.reverseRecOn generalizing t with
  | nil =>
    obtain rfl := Option.some.inj h
    exact .idle
  | append_singleton acts act ih =>
    rw [run_append] at h
    obtain ⟨t₁, hrun, hstep⟩ := Option.bind_eq_some_iff.1 h
    rw [run_singleton] at hstep
    rw [record_append hrun, record_singleton]
    exact (ih hrun).step hstep

theorem History.run (h : History callTimeout acts deeds t) :
    (Traffic.idle callTimeout).run acts = some t := by
  induction h with
  | idle => rfl
  | step _ hstep ih => rw [run_append, ih, Option.bind_some, run_singleton, hstep]

def deedsOf (i : Nat) (deeds : List (Nat × Effect)) : List Effect :=
  deeds.filterMap fun d => if d.1 = i then some d.2 else none

def receivedBy (i : Nat) (acts : List Act) : List ByteArray :=
  acts.filterMap fun
    | .receive j bytes => if j = i then some bytes else none
    | _ => none

/-- Whether one connection has come to its end. -/
def isOver (i : Nat) (acts : List Act) : Bool :=
  acts.any fun
    | .finish j => j == i
    | _ => false

/-- What one connection has come to, and all that it has decided to do. -/
def decided (i : Nat) (acts : List Act) : Connection × List Effect :=
  if isOver i acts then Connection.serve (receivedBy i acts)
  else Connection.start.receiveAll (receivedBy i acts)

theorem deedsOf_append (i : Nat) (deeds more : List (Nat × Effect)) :
    deedsOf i (deeds ++ more) = deedsOf i deeds ++ deedsOf i more := List.filterMap_append

theorem deedsOf_self (i : Nat) (e : Effect) : deedsOf i [(i, e)] = [e] :=
  List.filterMap_cons_some (if_pos rfl)

theorem deedsOf_of_ne (h : j ≠ i) (e : Effect) : deedsOf i [(j, e)] = [] :=
  List.filterMap_cons_none (if_neg h)

theorem deedsOf_concat_self (i : Nat) (e : Effect) :
    deedsOf i (deeds ++ [(i, e)]) = deedsOf i deeds ++ [e] := by
  rw [deedsOf_append, deedsOf_self]

theorem deedsOf_concat_of_ne (h : j ≠ i) (e : Effect) :
    deedsOf i (deeds ++ [(j, e)]) = deedsOf i deeds := by
  rw [deedsOf_append, deedsOf_of_ne h, List.append_nil]

theorem receivedBy_append (i : Nat) (acts more : List Act) :
    receivedBy i (acts ++ more) = receivedBy i acts ++ receivedBy i more := List.filterMap_append

theorem isOver_append (i : Nat) (acts more : List Act) :
    isOver i (acts ++ more) = (isOver i acts || isOver i more) := List.any_append

/-- The connection whose own act it is. -/
def Act.peer? : Act → Option Nat
  | .receive i _ | .finish i | .perform i => some i
  | _ => none

theorem Act.peer?_of_isAside (h : act.IsAside) : act.peer? = none := by
  cases act with
  | receive j bytes => exact h.elim
  | finish j => exact h.elim
  | perform j => exact h.elim
  | _ => rfl

theorem deedsOf_deed_of_ne (h : act.peer? ≠ some i) : deedsOf i (t.deed act) = [] := by
  cases act with
  | perform j =>
    have hne : j ≠ i := fun heq => h (congrArg some heq)
    unfold deed
    dsimp only
    cases t.peers[j]?.bind (·.pending.head?) with
    | none => rfl
    | some e => exact deedsOf_of_ne hne e
  | _ => rfl

theorem receivedBy_of_ne (h : act.peer? ≠ some i) : receivedBy i [act] = [] := by
  cases act with
  | receive j bytes =>
    have hne : j ≠ i := fun heq => h (congrArg some heq)
    exact List.filterMap_cons_none (if_neg hne)
  | _ => rfl

theorem isOver_of_ne (h : act.peer? ≠ some i) : isOver i [act] = false := by
  cases act with
  | finish j =>
    have hne : j ≠ i := fun heq => h (congrArg some heq)
    simp [isOver, hne]
  | _ => rfl

theorem decided_concat (hreceived : receivedBy i [act] = []) (hover : isOver i [act] = false)
    (acts : List Act) : decided i (acts ++ [act]) = decided i acts := by
  unfold decided
  rw [receivedBy_append, isOver_append, hreceived, hover, List.append_nil, Bool.or_false]

theorem decided_of_ne (h : act.peer? ≠ some i) (acts : List Act) :
    decided i (acts ++ [act]) = decided i acts :=
  decided_concat (receivedBy_of_ne h) (isOver_of_ne h) acts

theorem decided_perform (i j : Nat) (acts : List Act) :
    decided i (acts ++ [.perform j]) = decided i acts := decided_concat rfl rfl acts

theorem decided_receive (h : isOver i acts = false) (bytes : ByteArray) :
    decided i (acts ++ [.receive i bytes]) =
      (((decided i acts).1.receive bytes).1,
        (decided i acts).2 ++ ((decided i acts).1.receive bytes).2) := by
  have hreceived : receivedBy i [.receive i bytes] = [bytes] :=
    List.filterMap_cons_some (if_pos rfl)
  have hover : isOver i (acts ++ [.receive i bytes]) = false := by
    rw [isOver_append, h]
    rfl
  unfold decided
  rw [hover, h, receivedBy_append, hreceived]
  exact Connection.receiveAll_concat _ _ _

theorem decided_finish (h : isOver i acts = false) :
    decided i (acts ++ [.finish i]) =
      ((decided i acts).1.finish.1, (decided i acts).2 ++ (decided i acts).1.finish.2) := by
  have hreceived : receivedBy i [.finish i] = [] := rfl
  have hover : isOver i (acts ++ [.finish i]) = true := by
    rw [isOver_append, h]
    simp [isOver]
  unfold decided
  rw [hover, h, receivedBy_append, hreceived, List.append_nil]
  rfl

theorem phase_of_isOver (h : isOver i acts = true) :
    (decided i acts).1.dialogue.lifecycle.phase = .closed := by
  obtain ⟨_, n, _, hclosed⟩ := Connection.serve_conversation (receivedBy i acts)
  unfold decided
  rw [if_pos h, hclosed]

/-- What a connection has decided is a beginning of some conversation. -/
theorem decided_conversation (i : Nat) (acts : List Act) :
    ∃ more ms, (decided i acts).2 ++ more = conversation ms := by
  obtain ⟨ms, n, hserve, _⟩ := Connection.serve_conversation (receivedBy i acts)
  unfold decided
  split
  · exact ⟨[], ms, (List.append_nil _).trans hserve⟩
  · exact ⟨_, ms, hserve⟩

/-! ## What connections do -/

theorem perform_connection (p : Peer) (st : Station) (e : Effect) :
    (p.perform callTimeout st e).2.connection = p.connection := by
  cases e with
  | reply m => unfold Peer.perform; cases p.key <;> rfl
  | unlist => unfold Peer.perform; cases p.key <;> rfl
  | _ => rfl

theorem perform_pending (p : Peer) (st : Station) (e : Effect) :
    (p.perform callTimeout st e).2.pending = p.pending := by
  cases e with
  | reply m => unfold Peer.perform; cases p.key <;> rfl
  | unlist => unfold Peer.perform; cases p.key <;> rfl
  | _ => rfl

section Entries

variable {α : Type} {xs : List α} {x y z : α}

theorem eq_of_getElem?_set (hget : xs[i]? = some x) (h : (xs.set i y)[i]? = some z) : z = y := by
  rw [List.getElem?_set_self (List.getElem?_eq_some_iff.1 hget).1] at h
  exact (Option.some.inj h).symm

theorem getElem?_set_cases (hget : xs[i]? = some x) (h : (xs.set i y)[j]? = some z) :
    (j = i ∧ z = y) ∨ (j ≠ i ∧ xs[j]? = some z) := by
  by_cases hij : j = i
  · subst hij
    exact Or.inl ⟨rfl, eq_of_getElem?_set hget h⟩
  · rw [List.getElem?_set_ne (Ne.symm hij)] at h
    exact Or.inr ⟨hij, h⟩

theorem getElem?_append_of_some (h : xs[j]? = some x) (more : List α) :
    (xs ++ more)[j]? = some x :=
  (List.getElem?_append_left (List.getElem?_eq_some_iff.1 h).1).trans h

theorem getElem?_append_cases (h : (xs ++ [x])[j]? = some y) :
    xs[j]? = some y ∨ (j = xs.length ∧ y = x) := by
  by_cases hlt : j < xs.length
  · rw [List.getElem?_append_left hlt] at h
    exact Or.inl h
  · rw [List.getElem?_append_right (Nat.le_of_not_lt hlt)] at h
    have hzero : j - xs.length < [x].length := (List.getElem?_eq_some_iff.1 h).1
    have hj : j = xs.length := by
      rw [List.length_singleton] at hzero
      omega
    refine Or.inr ⟨hj, ?_⟩
    subst hj
    simpa using h.symm

end Entries

/-- A history is in step with its connections: what each has done and has yet to do is all that it
has decided, and nothing is on record of those yet to come. -/
structure InStep (acts : List Act) (deeds : List (Nat × Effect)) (t : Traffic) : Prop where
  present : ∀ i p, t.peers[i]? = some p →
    (p.connection, deedsOf i deeds ++ p.pending) = decided i acts
  absent : ∀ i, t.peers.length ≤ i →
    deedsOf i deeds = [] ∧ decided i acts = (Connection.start, []) ∧ isOver i acts = false

theorem InStep.of_ne (h : InStep acts deeds t) (hne : act.peer? ≠ some i)
    (hget : t.peers[i]? = some p) :
    (p.connection, deedsOf i (deeds ++ t.deed act) ++ p.pending) = decided i (acts ++ [act]) := by
  rw [deedsOf_append, deedsOf_deed_of_ne hne, List.append_nil, decided_of_ne hne]
  exact h.present i p hget

theorem InStep.absent_of_ne (h : InStep acts deeds t) (hne : act.peer? ≠ some i)
    (hi : t.peers.length ≤ i) :
    deedsOf i (deeds ++ t.deed act) = [] ∧
      decided i (acts ++ [act]) = (Connection.start, []) ∧ isOver i (acts ++ [act]) = false := by
  obtain ⟨hdeeds, hdecided, hover⟩ := h.absent i hi
  rw [deedsOf_append, deedsOf_deed_of_ne hne, hdeeds, decided_of_ne hne, isOver_append, hover,
    isOver_of_ne hne]
  exact ⟨rfl, hdecided, rfl⟩

theorem peer?_lt (h : t.Steps act t') (hact : act.peer? = some i) : i < t.peers.length := by
  cases h with
  | receive bytes hget _ _ =>
    cases hact
    exact (List.getElem?_eq_some_iff.1 hget).1
  | finish hget _ _ =>
    cases hact
    exact (List.getElem?_eq_some_iff.1 hget).1
  | perform hget _ =>
    cases hact
    exact (List.getElem?_eq_some_iff.1 hget).1
  | aside haside => exact absurd ((Act.peer?_of_isAside haside).symm.trans hact) (by simp)
  | accept address => exact absurd hact (by simp [Act.peer?])
  | shutdown => exact absurd hact (by simp [Act.peer?])
  | close _ _ => exact absurd hact (by simp [Act.peer?])
  | post => exact absurd hact (by simp [Act.peer?])

theorem length_peers_le (h : t.Steps act t') : t.peers.length ≤ t'.peers.length := by
  cases h with
  | accept address =>
    show t.peers.length ≤ (t.peers ++ [_]).length
    rw [List.length_append]
    exact Nat.le_add_right _ _
  | receive _ _ _ _ => exact Nat.le_of_eq List.length_set.symm
  | finish _ _ _ => exact Nat.le_of_eq List.length_set.symm
  | perform _ _ => exact Nat.le_of_eq List.length_set.symm
  | shutdown => exact Nat.le_refl _
  | close _ _ => exact Nat.le_refl _
  | aside _ => exact Nat.le_refl _
  | post => exact Nat.le_refl _

/-- Only its own acts change a connection; a new one has just been accepted. -/
theorem peer_cases (h : t.Steps act t') (hne : act.peer? ≠ some i)
    (hget : t'.peers[i]? = some p) :
    t.peers[i]? = some p ∨ ∃ address, i = t.peers.length ∧ p = .accept address := by
  cases h with
  | accept address =>
    rcases getElem?_append_cases hget with hold | ⟨hi, hp⟩
    · exact Or.inl hold
    · exact Or.inr ⟨address, hi, hp⟩
  | receive bytes hget' _ _ =>
    rcases getElem?_set_cases hget' hget with ⟨rfl, _⟩ | ⟨_, hold⟩
    · exact absurd rfl hne
    · exact Or.inl hold
  | finish hget' _ _ =>
    rcases getElem?_set_cases hget' hget with ⟨rfl, _⟩ | ⟨_, hold⟩
    · exact absurd rfl hne
    · exact Or.inl hold
  | perform hget' _ =>
    rcases getElem?_set_cases hget' hget with ⟨rfl, _⟩ | ⟨_, hold⟩
    · exact absurd rfl hne
    · exact Or.inl hold
  | shutdown => exact Or.inl hget
  | close _ _ => exact Or.inl hget
  | aside _ => exact Or.inl hget
  | post => exact Or.inl hget

theorem InStep.isOver_eq_false (h : InStep acts deeds t) (hget : t.peers[i]? = some p)
    (hopen : p.connection.dialogue.lifecycle.phase ≠ .closed) : isOver i acts = false := by
  have hconnection : (decided i acts).1 = p.connection :=
    congrArg Prod.fst (h.present i p hget).symm
  refine Bool.eq_false_iff.2 fun hover => hopen ?_
  rw [← hconnection]
  exact phase_of_isOver hover

theorem deed_perform {e : Effect} {later : List Effect} (hget : t.peers[i]? = some p)
    (hpending : p.pending = e :: later) : t.deed (.perform i) = [(i, e)] := by
  unfold deed
  dsimp only
  rw [hget, Option.bind_some, hpending]
  rfl

theorem InStep.of_self (h : InStep acts deeds t) (hsteps : t.Steps act t')
    (hact : act.peer? = some i) (hget : t'.peers[i]? = some p) :
    (p.connection, deedsOf i (deeds ++ t.deed act) ++ p.pending) = decided i (acts ++ [act]) := by
  rw [deedsOf_append]
  cases hsteps with
  | @receive j q bytes hget' hidle hlistens =>
    obtain rfl : j = i := Option.some.inj hact
    obtain rfl := eq_of_getElem?_set hget' hget
    -- nothing was pending, so what was decided before has been done
    have hopen : q.connection.dialogue.lifecycle.phase ≠ .closed := by
      intro hclosed
      rw [Dialogue.isListening, hclosed] at hlistens
      exact absurd hlistens (by decide)
    have hpresent := h.present j q hget'
    rw [hidle, List.append_nil] at hpresent
    rw [decided_receive (h.isOver_eq_false hget' hopen), ← hpresent]
    exact congrArg (fun es => (_, es ++ _)) (List.append_nil _)
  | @finish j q hget' hidle hopen =>
    obtain rfl : j = i := Option.some.inj hact
    obtain rfl := eq_of_getElem?_set hget' hget
    have hpresent := h.present j q hget'
    rw [hidle, List.append_nil] at hpresent
    rw [decided_finish (h.isOver_eq_false hget' hopen), ← hpresent]
    exact congrArg (fun es => (_, es ++ _)) (List.append_nil _)
  | @perform j q e later waits hget' hpending =>
    obtain rfl : j = i := Option.some.inj hact
    obtain rfl := eq_of_getElem?_set hget' hget
    have hpresent := h.present j q hget'
    rw [hpending] at hpresent
    -- the effect goes over from what is pending to what is done
    rw [decided_perform, perform_connection, perform_pending, deed_perform hget' hpending,
      deedsOf_self, List.append_assoc, List.singleton_append]
    exact hpresent
  | aside haside => exact absurd ((Act.peer?_of_isAside haside).symm.trans hact) (by simp)
  | accept address => exact absurd hact (by simp [Act.peer?])
  | shutdown => exact absurd hact (by simp [Act.peer?])
  | close _ _ => exact absurd hact (by simp [Act.peer?])
  | post => exact absurd hact (by simp [Act.peer?])

theorem InStep.step (h : InStep acts deeds t) (hsteps : t.Steps act t') :
    InStep (acts ++ [act]) (deeds ++ t.deed act) t' where
  present i p hget := by
    by_cases hact : act.peer? = some i
    · exact h.of_self hsteps hact hget
    · rcases peer_cases hsteps hact hget with hold | ⟨address, rfl, rfl⟩
      · exact h.of_ne hact hold
      · obtain ⟨hdeeds, hdecided, _⟩ := h.absent_of_ne hact (Nat.le_refl _)
        rw [hdeeds, hdecided]
        rfl
  absent i hi := by
    have hle : t.peers.length ≤ i := Nat.le_trans (length_peers_le hsteps) hi
    refine h.absent_of_ne (fun hact => ?_) hle
    exact absurd (peer?_lt hsteps hact) (Nat.not_lt.2 hle)

/-- What a connection has done is a beginning of some conversation, and so is that with what it is
about to do. -/
theorem InStep.conversation (h : InStep acts deeds t) (hget : t.peers[i]? = some p) :
    ∃ more ms, deedsOf i deeds ++ (p.pending ++ more) = Server.conversation ms := by
  obtain ⟨more, ms, hms⟩ := decided_conversation i acts
  refine ⟨more, ms, ?_⟩
  rw [← hms, ← h.present i p hget, List.append_assoc]

/-- **What a connection has done and has yet to do** is told by the bytes it has received. -/
theorem History.scripts (h : History callTimeout acts deeds t) : InStep acts deeds t := by
  induction h with
  | idle => exact ⟨fun i p hget => absurd hget (by simp [Traffic.idle]), fun i _ => ⟨rfl, rfl, rfl⟩⟩
  | step _ hstep ih => exact ih.step (steps_of_step hstep)

end Traffic

end KeywordRunner.Server
