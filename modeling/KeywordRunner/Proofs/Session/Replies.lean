import KeywordRunner.Proofs.Session.Calls

/-!
# Proofs.Session.Replies — what one call comes to

What becomes of a call that has its session to itself depends on nothing but the messages that reach
the session once the call is posted: the first of them that names no earlier call is the answer, the
ones before it are dropped, and the ones after it stay.

* **`Arrival.inTime`**, **`Session.deliverAll`** — what arrives before a deadline, and the session
  when it all has arrived.
* **`Session.Settled`** — what becomes of a call, as rules; **`Settled.unique`**: they leave no
  choice.
* **`Session.settled_await`** — waiting follows the rules.
* **`Session.call_behind`** — a call has nothing to do with what was posted before.
* **`Session.call_settled`** — a call as a whole, and the call after one that timed out.
-/

namespace KeywordRunner

open Wire (Message)

/-- The arrivals before a deadline, `elapsed` into the time. -/
def Arrival.inTime (deadline : Nat) : Nat → List Arrival → List Arrival
  | _, [] => []
  | elapsed, a :: later =>
    if elapsed + a.after.millis < deadline then
      a :: inTime deadline (elapsed + a.after.millis) later
    else []

namespace Arrival

theorem inTime_cons (deadline elapsed : Nat) (a : Arrival) (later : List Arrival) :
    inTime deadline elapsed (a :: later)
      = if elapsed + a.after.millis < deadline then
          a :: inTime deadline (elapsed + a.after.millis) later
        else [] :=
  rfl

theorem inTime_of_le {deadline elapsed : Nat} (h : deadline ≤ elapsed) (arrivals : List Arrival) :
    inTime deadline elapsed arrivals = [] := by
  cases arrivals with
  | nil => rfl
  | cons a later => exact if_neg (by omega)

theorem head?_inTime {deadline elapsed : Nat} {a b : Arrival} {later : List Arrival}
    (h : b ∈ (inTime deadline elapsed (a :: later)).head?) : b = a := by
  rw [inTime_cons] at h
  split at h
  · exact (Option.some.inj h).symm
  · exact absurd h nofun

end Arrival

namespace Session

/-! ## Arrivals that nobody takes -/

/-- The session after some arrivals, as long as nobody takes a message. -/
def deliverAll (s : Session) (arrivals : List Arrival) : Session :=
  arrivals.foldl (fun s a => s.deliver a.what) s

theorem deliverAll_cons (s : Session) (a : Arrival) (later : List Arrival) :
    s.deliverAll (a :: later) = (s.deliver a.what).deliverAll later :=
  rfl

theorem deliverAll_append (s : Session) (early late : List Arrival) :
    s.deliverAll (early ++ late) = (s.deliverAll early).deliverAll late :=
  List.foldl_append

/-- What arrives changes the inbox at most. -/
theorem deliver_eq (s : Session) (d : Delivery) :
    s.deliver d
      = { s with inbox := (s.deliver d).inbox, inboxOpen := (s.deliver d).inboxOpen } := by
  unfold deliver hangUp
  split
  · split <;> rfl
  · rfl

theorem deliverAll_eq (s : Session) (arrivals : List Arrival) :
    s.deliverAll arrivals
      = { s with
          inbox := (s.deliverAll arrivals).inbox
          inboxOpen := (s.deliverAll arrivals).inboxOpen } := by
  induction arrivals generalizing s with
  | nil => rfl
  | cons a later ih => rw [deliverAll_cons, ih, deliver_eq]

/-- Messages that are there already stay in front. -/
theorem deliver_inbox (s : Session) (front : List Message) (d : Delivery) :
    ({ s with inbox := front ++ s.inbox }).deliver d
      = { s.deliver d with inbox := front ++ (s.deliver d).inbox } := by
  unfold deliver hangUp
  split
  · dsimp only
    split
    · rw [List.append_assoc]
    · rfl
  · rfl

theorem deliverAll_inbox (s : Session) (front : List Message) (arrivals : List Arrival) :
    ({ s with inbox := front ++ s.inbox }).deliverAll arrivals
      = { s.deliverAll arrivals with inbox := front ++ (s.deliverAll arrivals).inbox } := by
  induction arrivals generalizing s with
  | nil => rfl
  | cons a later ih => rw [deliverAll_cons, deliverAll_cons, deliver_inbox, ih]

/-- Nothing arrives after a hang-up. -/
theorem deliver_of_gone {s : Session} (h : s.inboxOpen = false) (d : Delivery) :
    s.deliver d = s := by
  cases d with
  | message m => exact if_neg (by simp [h])
  | hangUp => rw [deliver, hangUp, ← h]

theorem deliverAll_of_gone {s : Session} (h : s.inboxOpen = false) (arrivals : List Arrival) :
    s.deliverAll arrivals = s := by
  induction arrivals with
  | nil => rfl
  | cons a later ih => rw [deliverAll_cons, deliver_of_gone h, ih]

/-! ## The rules -/

/-- The message names an earlier call than the one with this id. -/
def Stale (id : UInt64) (m : Message) : Prop := ∃ i, m.id = some i ∧ i < id

/-- What becomes of a call with some id, and of its session, when `heard` is the session with all
that reaches it in time and nothing taken out of it. -/
inductive Settled (r : Request) (id : UInt64) (heard : Session) :
    Session → Except CallFault Message → Prop where
  | answered {before after : List Message} {m : Message}
      (hinbox : heard.inbox = before ++ m :: after)
      (hstale : ∀ b ∈ before, Stale id b) (hanswer : ¬Stale id m) :
      Settled r id heard { heard with inbox := after }
        (if m.name = Message.failName then .error (.remoteFailure r.name m.args) else .ok m)
  | hungUp (hnone : ∀ m ∈ heard.inbox, Stale id m) (hgone : heard.inboxOpen = false) :
      Settled r id heard { heard with inbox := [] } (.error (.connectionClosed heard.deviceId))
  | timedOut (hnone : ∀ m ∈ heard.inbox, Stale id m) (hopen : heard.inboxOpen = true) :
      Settled r id heard { heard with inbox := [] } (.error (.timeout r.timeout))

section

variable {r : Request} {id : UInt64} {heard s' : Session} {outcome : Except CallFault Message}

/-- More messages of earlier calls in front make no difference. -/
theorem Settled.skip {front : List Message} (hfront : ∀ m ∈ front, Stale id m)
    (h : Settled r id heard s' outcome) :
    Settled r id { heard with inbox := front ++ heard.inbox } s' outcome := by
  cases h with
  | @answered before after m hinbox hstale hanswer =>
    have hfirst : front ++ heard.inbox = (front ++ before) ++ m :: after := by
      rw [hinbox, List.append_assoc]
    exact .answered hfirst (List.forall_mem_append.2 ⟨hfront, hstale⟩) hanswer
  | hungUp hnone hgone => exact .hungUp (List.forall_mem_append.2 ⟨hfront, hnone⟩) hgone
  | timedOut hnone hopen => exact .timedOut (List.forall_mem_append.2 ⟨hfront, hnone⟩) hopen

/-- What arrives once the call is over stays, and would not have changed what became of the
call. -/
theorem Settled.later (h : Settled r id heard s' outcome) {late : List Arrival}
    (hlate : outcome = .error (.timeout r.timeout) → late = []) :
    Settled r id (heard.deliverAll late) (s'.deliverAll late) outcome := by
  cases h with
  | @answered before after m hinbox hstale hanswer =>
    -- to what is still to come, the messages taken out are as good as in front of it
    have hfront : heard.deliverAll late
        = { ({ heard with inbox := after }).deliverAll late with
            inbox := (before ++ [m]) ++ (({ heard with inbox := after }).deliverAll late).inbox } := by
      rw [← deliverAll_inbox, List.append_assoc, List.singleton_append, ← hinbox]
    rw [hfront]
    exact .answered (List.append_assoc ..) hstale hanswer
  | hungUp hnone hgone =>
    have hleft : ({ heard with inbox := [] }).inboxOpen = false := hgone
    rw [deliverAll_of_gone hgone, deliverAll_of_gone hleft]
    exact .hungUp hnone hgone
  | timedOut hnone hopen =>
    rw [hlate rfl]
    exact .timedOut hnone hopen

/-- Running out of time leaves nothing in an inbox that is still open. -/
theorem Settled.of_timeout (h : Settled r id heard s' (.error (.timeout r.timeout))) :
    s' = { heard with inbox := [], inboxOpen := true } := by
  generalize houtcome : Except.error (CallFault.timeout r.timeout) = outcome at h
  -- of the three rules only one makes a timeout
  cases h with
  | answered => split at houtcome <;> cases houtcome
  | hungUp => cases houtcome
  | timedOut hnone hopen => rw [← hopen]

end

/-! ## Waiting follows the rules -/

theorem answers_iff {id : UInt64} {m : Message} : answers id m = true ↔ ¬Stale id m := by
  unfold answers Stale
  cases m.id with
  | none => simp
  | some i => simp

theorem answers_of_stale {id : UInt64} {m : Message} (h : Stale id m) : ¬answers id m = true :=
  fun hanswers => answers_iff.1 hanswers h

/-- Looking for an answer parts the messages at the first one, if there is one. -/
theorem takeReply_cases (id : UInt64) (ms : List Message) :
    (∃ before m after, ms = before ++ m :: after ∧ (∀ b ∈ before, Stale id b) ∧ ¬Stale id m ∧
        takeReply id ms = (some m, after)) ∨
    ((∀ m ∈ ms, Stale id m) ∧ takeReply id ms = (none, [])) := by
  induction ms with
  | nil => exact .inr ⟨List.forall_mem_nil _, rfl⟩
  | cons m ms ih =>
    unfold takeReply
    by_cases hm : Stale id m
    · rw [if_neg (answers_of_stale hm)]
      obtain ⟨before, n, after, rfl, hstale, hn, htake⟩ | ⟨hnone, htake⟩ := ih
      · exact .inl ⟨m :: before, n, after, rfl, List.forall_mem_cons.2 ⟨hm, hstale⟩, hn, htake⟩
      · exact .inr ⟨List.forall_mem_cons.2 ⟨hm, hnone⟩, htake⟩
    · rw [if_pos (answers_iff.2 hm)]
      exact .inl ⟨[], m, ms, rfl, List.forall_mem_nil _, hm, rfl⟩

theorem outcomeOf_eq (call : String) (m : Message) :
    outcomeOf call m
      = if m.name = Message.failName then .error (.remoteFailure call m.args) else .ok m := by
  unfold outcomeOf Message.isFailure
  simp only [beq_iff_eq]

/-- A caller that looks into the inbox either has its outcome, or has dropped messages of earlier
calls only. -/
theorem poll_cases (s : Session) (r : Request) (id : UInt64) :
    (∃ s' outcome, s.poll r.name id = (s', some outcome) ∧ Settled r id s s' outcome ∧
        outcome ≠ .error (.timeout r.timeout)) ∨
    (s.poll r.name id = ({ s with inbox := [] }, none) ∧ s.inboxOpen = true ∧
      ∀ m ∈ s.inbox, Stale id m) := by
  unfold poll
  obtain ⟨before, m, after, hinbox, hstale, hm, htake⟩ | ⟨hnone, htake⟩ :=
    takeReply_cases id s.inbox
  · rw [htake]
    refine .inl ⟨_, _, rfl, ?_, ?_⟩
    · rw [outcomeOf_eq]
      exact .answered hinbox hstale hm
    · rw [outcomeOf_eq]
      split <;> exact nofun
  · rw [htake]
    dsimp only
    by_cases hopen : s.inboxOpen = true
    · rw [if_pos hopen]
      exact .inr ⟨rfl, hopen, hnone⟩
    · rw [if_neg hopen]
      exact .inl ⟨_, _, rfl, .hungUp hnone (Bool.not_eq_true _ ▸ hopen), nofun⟩

/-- A wait with time left hears what arrives before its deadline up to some later instant, and
follows the rules on that. It ends before the deadline only with something in hand. -/
theorem settled_await (s : Session) (r : Request) (id : UInt64) (elapsed : Nat)
    (arrivals : List Arrival) (htime : elapsed < r.timeout.millis ∨ arrivals = []) :
    ∃ early late, Arrival.inTime r.timeout.millis elapsed arrivals = early ++ late ∧
      (∀ a ∈ late.head?, a.after.millis ≠ 0) ∧
      Settled r id (s.deliverAll early) (s.await r id elapsed arrivals).1
        (s.await r id elapsed arrivals).2 ∧
      ((s.await r id elapsed arrivals).2 = .error (.timeout r.timeout) → late = []) := by
  have hnothing : ∀ a ∈ ([] : List Arrival).head?, a.after.millis ≠ 0 := by simp
  induction arrivals generalizing s elapsed with
  | nil =>
    unfold await
    obtain ⟨s', outcome, hpoll, hsettled, -⟩ | ⟨hpoll, hopen, hnone⟩ := s.poll_cases r id
    · rw [hpoll]
      exact ⟨[], [], rfl, hnothing, hsettled, fun _ => rfl⟩
    · rw [hpoll]
      exact ⟨[], [], rfl, hnothing, .timedOut hnone hopen, fun _ => rfl⟩
  | cons a later ih =>
    replace htime : elapsed < r.timeout.millis := htime.resolve_right (List.cons_ne_nil a later)
    unfold await
    by_cases hnow : a.after.millis = 0
    · -- what comes at the same instant is there before the caller looks
      rw [if_pos hnow, Arrival.inTime_cons, hnow, Nat.add_zero, if_pos htime]
      obtain ⟨early, late, hsplit, hhead, hsettled, htimeout⟩ :=
        ih (s.deliver a.what) elapsed (.inl htime)
      exact ⟨a :: early, late, by rw [hsplit, List.cons_append], hhead, hsettled, htimeout⟩
    · rw [if_neg hnow]
      obtain ⟨s', outcome, hpoll, hsettled, hreply⟩ | ⟨hpoll, hopen, hnone⟩ := s.poll_cases r id
      · -- the call is over, and everything from here on is late
        rw [hpoll]
        exact ⟨[], _, rfl, fun b hb => Arrival.head?_inTime hb ▸ hnow, hsettled,
          fun h => absurd h hreply⟩
      · rw [hpoll, Arrival.inTime_cons]
        dsimp only
        split
        · next hin =>
          obtain ⟨early, late, hsplit, hhead, hsettled, htimeout⟩ :=
            ih (({ s with inbox := [] }).deliver a.what) _ (.inl hin)
          refine ⟨a :: early, late, by rw [hsplit, List.cons_append], hhead, ?_, htimeout⟩
          -- the messages the caller has dropped by now are all of earlier calls
          have hall : s.deliverAll (a :: early)
              = { ({ s with inbox := [] }).deliverAll (a :: early) with
                  inbox := s.inbox ++ (({ s with inbox := [] }).deliverAll (a :: early)).inbox } := by
            rw [← deliverAll_inbox, List.append_nil]
          rw [hall]
          exact hsettled.skip hnone
        · exact ⟨[], [], rfl, hnothing, .timedOut hnone hopen, fun _ => rfl⟩

theorem settled_settle (s : Session) (r : Request) (id : UInt64) (arrivals : List Arrival) :
    ∃ early late, Arrival.inTime r.timeout.millis 0 arrivals = early ++ late ∧
      (∀ a ∈ late.head?, a.after.millis ≠ 0) ∧
      Settled r id (s.deliverAll early) (s.settle r id arrivals).1 (s.settle r id arrivals).2 ∧
      ((s.settle r id arrivals).2 = .error (.timeout r.timeout) → late = []) := by
  unfold settle
  by_cases hzero : r.timeout.millis = 0
  · rw [if_pos hzero, Arrival.inTime_of_le (by omega)]
    exact s.settled_await r id 0 [] (.inr rfl)
  · rw [if_neg hzero]
    exact s.settled_await r id 0 arrivals (.inl (by omega))

/-! ## The rules leave no choice -/

theorem takeReply_of_answer {id : UInt64} {ms before after : List Message} {m : Message}
    (hms : ms = before ++ m :: after) (hstale : ∀ b ∈ before, Stale id b)
    (hanswer : ¬Stale id m) : takeReply id ms = (some m, after) := by
  subst hms
  induction before with
  | nil => exact if_pos (answers_iff.2 hanswer)
  | cons b before ih =>
    obtain ⟨hb, hbefore⟩ := List.forall_mem_cons.1 hstale
    exact (if_neg (answers_of_stale hb)).trans (ih hbefore)

/-- What becomes of a call is settled by what its session has heard. -/
theorem Settled.unique {r : Request} {id : UInt64} {heard s₁ s₂ : Session}
    {o₁ o₂ : Except CallFault Message} (h₁ : Settled r id heard s₁ o₁)
    (h₂ : Settled r id heard s₂ o₂) : s₁ = s₂ ∧ o₁ = o₂ := by
  have hanswered : ∀ {before after : List Message} {m : Message},
      heard.inbox = before ++ m :: after → ¬Stale id m → ¬∀ m ∈ heard.inbox, Stale id m :=
    fun hinbox hanswer hnone => hanswer (hnone _ (by simp [hinbox]))
  cases h₁ with
  | answered hinbox hstale hanswer =>
    cases h₂ with
    | answered hinbox' hstale' hanswer' =>
      cases (takeReply_of_answer hinbox hstale hanswer).symm.trans
        (takeReply_of_answer hinbox' hstale' hanswer')
      exact ⟨rfl, rfl⟩
    | hungUp hnone | timedOut hnone => exact absurd hnone (hanswered hinbox hanswer)
  | hungUp hnone hgone =>
    cases h₂ with
    | answered hinbox _ hanswer => exact absurd hnone (hanswered hinbox hanswer)
    | hungUp => exact ⟨rfl, rfl⟩
    | timedOut _ hopen => exact absurd (hgone.symm.trans hopen) nofun
  | timedOut hnone hopen =>
    cases h₂ with
    | answered hinbox _ hanswer => exact absurd hnone (hanswered hinbox hanswer)
    | hungUp _ hgone => exact absurd (hgone.symm.trans hopen) nofun
    | timedOut => exact ⟨rfl, rfl⟩

/-! ## What was posted before -/

/-- The session with some messages handed to the writer before its own. -/
def behind (s : Session) (sent : List Message) : Session := { s with outbox := sent ++ s.outbox }

section

variable (s : Session) (sent : List Message)

theorem deliver_behind (d : Delivery) : (s.behind sent).deliver d = (s.deliver d).behind sent := by
  cases d with
  | hangUp => rfl
  | message m =>
    unfold deliver behind
    dsimp only
    split <;> rfl

theorem poll_behind (call : String) (id : UInt64) :
    (s.behind sent).poll call id = ((s.poll call id).1.behind sent, (s.poll call id).2) := by
  have hinbox : (s.behind sent).inbox = s.inbox := rfl
  unfold poll
  rw [hinbox]
  split <;> rfl

theorem await_behind (r : Request) (id : UInt64) (elapsed : Nat) (arrivals : List Arrival) :
    (s.behind sent).await r id elapsed arrivals
      = ((s.await r id elapsed arrivals).1.behind sent, (s.await r id elapsed arrivals).2) := by
  induction arrivals generalizing s elapsed with
  | nil =>
    unfold await
    rw [poll_behind]
    rcases s.poll r.name id with ⟨s', _ | outcome⟩ <;> rfl
  | cons a later ih =>
    unfold await
    rw [poll_behind, deliver_behind]
    split
    · exact ih ..
    · rcases s.poll r.name id with ⟨s', _ | outcome⟩
      · dsimp only
        rw [deliver_behind]
        split
        · exact ih ..
        · rfl
      · rfl

/-- A call neither reads nor changes what was posted before it. -/
theorem call_behind (r : Request) (arrivals : List Arrival) :
    (s.behind sent).call r arrivals
      = ((s.call r arrivals).1.behind sent, (s.call r arrivals).2) := by
  have hclosed' : (s.behind sent).closed = s.closed := rfl
  have hwriter' : (s.behind sent).writerOpen = s.writerOpen := rfl
  unfold call
  cases hclosed : s.closed with
  | true =>
    rw [request_of_closed r hclosed, request_of_closed r (hclosed'.trans hclosed)]
    rfl
  | false =>
    replace hclosed' := hclosed'.trans hclosed
    cases hwriter : s.writerOpen with
    | true =>
      have hposted : (s.behind sent).posted r = (s.posted r).behind sent := by
        unfold posted behind
        rw [← List.append_assoc]
        rfl
      rw [request_of_writer r hclosed hwriter,
        request_of_writer r hclosed' (hwriter'.trans hwriter), hposted]
      exact await_behind ..
    | false =>
      rw [request_of_no_writer r hclosed hwriter,
        request_of_no_writer r hclosed' (hwriter'.trans hwriter)]
      rfl

end

/-! ## A call as a whole -/

/-- The session as if it had only just connected, but with a latest id. -/
def anew (s : Session) (id : UInt64) : Session :=
  { connect s.deviceId s.peer s.defaultTimeout with lastId := id }

/-- Running out of time leaves a session as if it had just connected, but for its latest id and for
what it has posted. -/
theorem eq_anew_of_timeout {s left : Session} {r : Request} {arrivals : List Arrival}
    (hopen : s.closed = false) (hwriter : s.writerOpen = true)
    (h : Settled r (s.lastId + 1) ((s.posted r).deliverAll arrivals) left
      (.error (.timeout r.timeout))) :
    left = (s.anew (s.lastId + 1)).behind left.outbox := by
  rw [h.of_timeout, deliverAll_eq]
  simp [anew, behind, connect, posted, numbered, hopen, hwriter]

/-- **What one call comes to.** On a closed session a call is refused and changes nothing. Otherwise,
with a writer, it posts one message, under the next id, and whatever was left over makes no
difference. It is settled by what reaches the session before its deadline; what of that comes at a
later instant than its end, the session has yet to get. If it runs out of time, the next call goes
as on a session that has just connected. -/
theorem call_settled (s : Session) (r : Request) (arrivals : List Arrival)
    (hwriter : s.writerOpen = true) :
    (s.closed = true → s.call r arrivals = (s, .error (.notConnected s.deviceId))) ∧
    (s.closed = false → ∃ left outcome, s.call r arrivals = (left, outcome) ∧
      (∀ leftovers, ({ s with inbox := leftovers }).call r arrivals = (left, outcome)) ∧
      left.outbox = s.outbox ++ [Message.call (s.lastId + 1) r.name r.args r.version] ∧
      left.lastId = s.lastId + 1 ∧ left.closed = s.closed ∧
      (∃ early late, Arrival.inTime r.timeout.millis 0 arrivals = early ++ late ∧
        (∀ a ∈ late.head?, a.after.millis ≠ 0) ∧
        Settled r (s.lastId + 1) ((s.posted r).deliverAll (early ++ late)) (left.deliverAll late)
          outcome) ∧
      (outcome = .error (.timeout r.timeout) → ∀ (r' : Request) (arrivals' : List Arrival),
        left.call r' arrivals'
          = (((s.anew (s.lastId + 1)).call r' arrivals').1.behind left.outbox,
              ((s.anew (s.lastId + 1)).call r' arrivals').2))) := by
  refine ⟨fun hclosed => ?_, fun hopen => ?_⟩
  · unfold call
    rw [request_of_closed r hclosed]
  · obtain ⟨left, outcome, hsettle⟩ :
        ∃ left outcome, (s.posted r).settle r (s.lastId + 1) arrivals = (left, outcome) :=
      ⟨_, _, rfl⟩
    have hcall : ∀ leftovers, ({ s with inbox := leftovers }).call r arrivals = (left, outcome) := by
      intro leftovers
      have hrequest : ({ s with inbox := leftovers }).request r = (s.posted r, .ok (s.lastId + 1)) :=
        request_of_writer r hopen hwriter
      rw [call, hrequest]
      exact hsettle
    have hears : (s.posted r).Hears left := by
      have := (s.posted r).hears_settle r (s.lastId + 1) arrivals
      rwa [hsettle] at this
    obtain ⟨early, late, hsplit, hhead, hsettled, htimeout⟩ :=
      (s.posted r).settled_settle r (s.lastId + 1) arrivals
    rw [hsettle] at hsettled htimeout
    refine ⟨left, outcome, hcall s.inbox, hcall, hears.outbox, hears.lastId, hears.closed,
      ⟨early, late, hsplit, hhead, ?_⟩, ?_⟩
    · rw [deliverAll_append]
      exact hsettled.later htimeout
    · rintro rfl r' arrivals'
      rw [← call_behind, ← eq_anew_of_timeout hopen hwriter hsettled]

/-- A late failure of the call before, once left over and once while the call waits, and an answer
with an id that no call has had yet: the answer is taken, what comes with it stays, and what would
come after it is left to come. -/
theorem call_settled_among_strays :
    let fail : Message := ⟨some 1, .result, .plain, Message.failName, []⟩
    let answer : Message := ⟨some 7, .result, .plain, "done", []⟩
    let more : Message := ⟨none, .result, .plain, Message.failName, []⟩
    let s : Session :=
      { connect "d" none standardTimeout with lastId := 1, inbox := [fail] }
    let r : Request := ⟨"tap", [], ⟨10⟩, .plain⟩
    let arrivals : List Arrival :=
      [⟨⟨2⟩, .message fail⟩, ⟨⟨3⟩, .message answer⟩, .now (.message more), ⟨⟨1⟩, .hangUp⟩]
    s.writerOpen = true ∧ s.closed = false ∧
      ∃ left, s.call r arrivals = (left, .ok answer) ∧ left.lastId = 2 ∧ left.inbox = [more] ∧
        left.inboxOpen = true ∧
        ∀ leftovers, ({ s with inbox := leftovers }).call r arrivals = (left, .ok answer) := by
  intro fail answer more s r arrivals
  have hrun : s.call r arrivals
      = ({ (s.posted r).deliverAll arrivals with inbox := [more], inboxOpen := true },
          .ok answer) := by rfl
  obtain ⟨left, outcome, hcall, hleftovers, -, hid, -⟩ := (call_settled s r arrivals rfl).2 rfl
  obtain ⟨rfl, rfl⟩ := Prod.mk.inj (hcall.symm.trans hrun)
  exact ⟨rfl, rfl, _, hcall, hid, rfl, rfl, hleftovers⟩

end Session

end KeywordRunner
