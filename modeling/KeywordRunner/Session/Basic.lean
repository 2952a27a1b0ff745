import KeywordRunner.Net.SocketAddress
import KeywordRunner.Session.Fault
import KeywordRunner.Wire.Frame

/-!
# Session.Basic — the host's end of one device connection

A session holds the queue of messages on their way to the device and the queue of messages that
came back. Answers are matched first in, first out, so at most one call is under way at a time; a
call is made of the steps here. `Session.Call` puts them together for a caller that has the session
to itself, `Session.Callers` for any number of them.

The way to the device is idealised in two points. The queue has no bound, so handing a message over
is one step and never waits; the queue of a connection to a device holds 256 messages, and there the
step comes about once there is room. And the writer is there until the connection drops it
(`dropWriter`); a writer that gives up earlier, because its device cannot be written to any more,
has no step of its own.
-/

namespace KeywordRunner

open Wire (Message ProtocolVersion)

/-- The host's end of a connection to one registered device. -/
structure Session where
  deviceId : String
  peer : Option SocketAddress
  defaultTimeout : Duration
  /-- The id of the latest call, zero before the first. -/
  lastId : UInt64
  closed : Bool
  /-- Messages from the device that no caller has taken, the oldest first. -/
  inbox : List Message
  inboxOpen : Bool
  /-- Messages handed to the writer, the oldest first, sent or not. -/
  outbox : List Message
  writerOpen : Bool

structure Request where
  name : String
  args : List Json
  timeout : Duration
  version : ProtocolVersion

/-- What the far end does: it sends a message, or it ends the connection. -/
inductive Delivery where
  | message (m : Message)
  | hangUp

namespace Session

/-- How long a call waits when neither it nor its session says otherwise. -/
def standardTimeout : Duration := Duration.ofSeconds 120

def connect (deviceId : String) (peer : Option SocketAddress) (defaultTimeout : Duration) :
    Session where
  deviceId := deviceId
  peer := peer
  defaultTimeout := defaultTimeout
  lastId := 0
  closed := false
  inbox := []
  inboxOpen := true
  outbox := []
  writerOpen := true

def markClosed (s : Session) : Session := { s with closed := true }

/-- The connection's end of the inbox closes; what arrived before stays. -/
def hangUp (s : Session) : Session := { s with inboxOpen := false }

def dropWriter (s : Session) : Session := { s with writerOpen := false }

/-- A message from the far end, or its hanging up. Nothing arrives after a hang-up. -/
def deliver (s : Session) : Delivery → Session
  | .message m => if s.inboxOpen then { s with inbox := s.inbox ++ [m] } else s
  | .hangUp => s.hangUp

/-! ### The steps of a call -/

/-- Forgets every message that came too late for an earlier call. -/
def dropLeftovers (s : Session) : Session := { s with inbox := [] }

def takeId (s : Session) : Session × UInt64 := ({ s with lastId := s.lastId + 1 }, s.lastId + 1)

/-- Hands a message to the writer, when there still is one. There always is room. -/
def post (s : Session) (m : Message) : Option Session :=
  if s.writerOpen then some { s with outbox := s.outbox ++ [m] } else none

/-- What the writer sends: each message as its frame. -/
def frames (s : Session) : List String := s.outbox.map Wire.encodeFrame

/-- Whether a message answers the call with this id: it names no earlier one. -/
def answers (id : UInt64) (m : Message) : Bool :=
  match m.id with
  | some i => !(i < id)
  | none => true

/-- What a waiting call makes of its answer. -/
def outcomeOf (call : String) (m : Message) : Except CallFault Message :=
  if m.isFailure then .error (.remoteFailure call m.args) else .ok m

/-- The first waiting message that answers a call; the ones before it are dropped. -/
def takeReply (id : UInt64) : List Message → Option Message × List Message
  | [] => (none, [])
  | m :: ms => if answers id m then (some m, ms) else takeReply id ms

/-- Sends a kill signal. The session itself stays as it is until the connection ends. -/
def close (s : Session) : Session × Except CallFault Unit :=
  match s.post Message.killSignal with
  | some s => (s, .ok ())
  | none => (s, .error (.notConnected s.deviceId))

/-- The session for a developer's eye. -/
def debugText (s : Session) : String :=
  "DeviceSession \x7b device_id: " ++ Text.quoted s.deviceId ++ ", peer_addr: " ++
    (match s.peer with
      | none => "None"
      | some a => "Some(" ++ a.text ++ ")") ++
    ", last_msg_id: " ++ Digits.text s.lastId.toNat ++
    ", closed: " ++ (if s.closed then "true" else "false") ++ " \x7d"

end Session

end KeywordRunner
