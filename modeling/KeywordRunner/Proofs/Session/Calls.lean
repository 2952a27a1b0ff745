import KeywordRunner.Proofs.Session.Steps
import KeywordRunner.Session.Port

/-!
# Proofs.Session.Calls — what one call does to its session

A call is refused, or finds no writer, or posts exactly one message; whatever comes about while it
waits for the answer, it posts nothing more.

* **`Session.posted`** — the session once a call is posted; the `request_of` theorems are the three
  ways a call can begin.
* **`Session.Hears`**, **`hears_settle`** — what waiting leaves as it is.
* **`Link.hears_call`** — a call as a whole, over a link.
-/

namespace KeywordRunner

open Wire (Message)

namespace Session

/-! ## Beginning a call -/

/-- A session on which a call has got its id. -/
def numbered (s : Session) : Session := { s with inbox := [], lastId := s.lastId + 1 }

/-- A session on which a call has been posted. -/
def posted (s : Session) (r : Request) : Session :=
  { s.numbered with outbox := s.outbox ++ [r.message (s.lastId + 1)] }

variable {s s' s'' : Session}

theorem request_of_closed (r : Request) (h : s.closed = true) :
    s.request r = (s, .error (.notConnected s.deviceId)) :=
  if_pos h

theorem request_of_no_writer (r : Request) (hopen : s.closed = false)
    (hgone : s.writerOpen = false) :
    s.request r = (s.numbered, .error (.connectionClosed s.deviceId)) := by
  simp [request, dropLeftovers, takeId, post, numbered, hopen, hgone]

theorem request_of_writer (r : Request) (hopen : s.closed = false) (hwriter : s.writerOpen = true) :
    s.request r = (s.posted r, .ok (s.lastId + 1)) := by
  simp [request, dropLeftovers, takeId, post, posted, numbered, Request.message, hopen, hwriter]

/-! ## Waiting for the answer -/

/-- A session at a later time, when nothing has happened to it but that messages came and were
taken. -/
structure Hears (s s' : Session) : Prop where
  deviceId : s'.deviceId = s.deviceId
  lastId : s'.lastId = s.lastId
  closed : s'.closed = s.closed
  outbox : s'.outbox = s.outbox
  writerOpen : s'.writerOpen = s.writerOpen

theorem Hears.trans (h : s.Hears s') (h' : s'.Hears s'') : s.Hears s'' where
  deviceId := h'.deviceId.trans h.deviceId
  lastId := h'.lastId.trans h.lastId
  closed := h'.closed.trans h.closed
  outbox := h'.outbox.trans h.outbox
  writerOpen := h'.writerOpen.trans h.writerOpen

theorem hears_deliver (s : Session) (d : Delivery) : s.Hears (s.deliver d) := by
  cases d with
  | hangUp => exact ⟨rfl, rfl, rfl, rfl, rfl⟩
  | message m =>
    unfold deliver
    dsimp only
    split <;> exact ⟨rfl, rfl, rfl, rfl, rfl⟩

theorem hears_poll (s : Session) (call : String) (id : UInt64) : s.Hears (s.poll call id).1 := by
  unfold poll
  split <;> exact ⟨rfl, rfl, rfl, rfl, rfl⟩

theorem hears_await (s : Session) (r : Request) (id : UInt64) (elapsed : Nat)
    (arrivals : List Arrival) : s.Hears (s.await r id elapsed arrivals).1 := by
  induction arrivals generalizing s elapsed with
  | nil =>
    have hpoll := s.hears_poll r.name id
    unfold await
    split <;> next heq => rw [heq] at hpoll; exact hpoll
  | cons a later ih =>
    have hpoll := s.hears_poll r.name id
    unfold await
    split
    · exact (s.hears_deliver a.what).trans (ih _ _)
    · split
      · next heq =>
        rw [heq] at hpoll
        exact hpoll
      · next s' heq =>
        rw [heq] at hpoll
        dsimp only
        -- what comes in time is heard, and after that the wait goes on
        split
        · exact hpoll.trans ((s'.hears_deliver a.what).trans (ih _ _))
        · exact hpoll

theorem hears_settle (s : Session) (r : Request) (id : UInt64) (arrivals : List Arrival) :
    s.Hears (s.settle r id arrivals).1 :=
  s.hears_await r id 0 _

end Session

/-! ## Calls over a link -/

namespace Link

variable {l : Link}

theorem call_of_closed (r : Request) (h : l.session.closed = true) :
    l.call r = (l, .error (.notConnected l.session.deviceId)) := by
  rw [call, Session.request_of_closed r h]

/-- Without a writer the call is numbered and fails before anything is posted. -/
theorem call_of_no_writer (r : Request) (hopen : l.session.closed = false)
    (hgone : l.session.writerOpen = false) :
    l.call r
      = (⟨l.session.numbered, l.reactions⟩, .error (.connectionClosed l.session.deviceId)) := by
  rw [call, Session.request_of_no_writer r hopen hgone]

/-- With one its message is posted, and after that the session only hears what comes. -/
theorem hears_call (r : Request) (hopen : l.session.closed = false)
    (hwriter : l.session.writerOpen = true) :
    (l.session.posted r).Hears (l.call r).1.session := by
  rw [call, Session.request_of_writer r hopen hwriter]
  exact Session.hears_settle ..

end Link

end KeywordRunner
