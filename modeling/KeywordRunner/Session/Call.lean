import KeywordRunner.Session.Basic

/-!
# Session.Call — one call at a time

A call by a caller that has the session to itself: refuse when the session is closed, forget what
is left over from earlier calls, take an id, post the frame, then wait for the first message that
names no earlier call. What the device does meanwhile is a list of arrivals in time order, so a
call is a function of the session and that list.

The deadline of a call is the instant of posting and the time of the request taken together. It is
taken to exist: a time to wait that no clock reaches the end of is one like any other here.
-/

namespace KeywordRunner

open Wire (Message)

/-- Something the far end does, and how long after its previous act. -/
structure Arrival where
  after : Duration
  what : Delivery

namespace Arrival

def now (d : Delivery) : Arrival := ⟨⟨0⟩, d⟩

end Arrival

namespace Session

/-- Everything up to waiting; the id of the posted call when it comes to that. -/
def request (s : Session) (r : Request) : Session × Except CallFault UInt64 :=
  if s.closed then (s, .error (.notConnected s.deviceId))
  else
    let (s, id) := s.dropLeftovers.takeId
    match s.post (Message.call id r.name r.args r.version) with
    | some s => (s, .ok id)
    | none => (s, .error (.connectionClosed s.deviceId))

/-- What a waiting caller finds in the inbox: an outcome, or nothing yet. -/
def poll (s : Session) (call : String) (id : UInt64) :
    Session × Option (Except CallFault Message) :=
  match takeReply id s.inbox with
  | (some m, rest) => ({ s with inbox := rest }, some (outcomeOf call m))
  | (none, _) =>
    ({ s with inbox := [] },
      if s.inboxOpen then none else some (.error (.connectionClosed s.deviceId)))

/-- Waits for the answer to a posted call, `elapsed` into its time. The caller looks whenever
nothing more arrives at the instant, so what arrives together is in the inbox together; what would
arrive once the call is over does not arrive. -/
def await (s : Session) (r : Request) (id : UInt64) (elapsed : Nat) :
    List Arrival → Session × Except CallFault Message
  | [] =>
    match s.poll r.name id with
    | (s, some outcome) => (s, outcome)
    | (s, none) => (s, .error (.timeout r.timeout))
  | a :: later =>
    if a.after.millis = 0 then (s.deliver a.what).await r id elapsed later
    else
      match s.poll r.name id with
      | (s, some outcome) => (s, outcome)
      | (s, none) =>
        let instant := elapsed + a.after.millis
        if instant < r.timeout.millis then (s.deliver a.what).await r id instant later
        else (s, .error (.timeout r.timeout))

/-- Waits for the answer to a call that has just been posted. Without any time to wait the caller
still looks once, before anything arrives. -/
def settle (s : Session) (r : Request) (id : UInt64) (arrivals : List Arrival) :
    Session × Except CallFault Message :=
  s.await r id 0 (if r.timeout.millis = 0 then [] else arrivals)

/-- A call, answered by `arrivals` once its frame is posted. -/
def call (s : Session) (r : Request) (arrivals : List Arrival) :
    Session × Except CallFault Message :=
  match s.request r with
  | (s, .error fault) => (s, .error fault)
  | (s, .ok id) => s.settle r id arrivals

end Session

end KeywordRunner
