import KeywordRunner.Server.Connection
import KeywordRunner.Server.Directory

/-!
# Server.Traffic — everything that goes on at a server at once

Connections perform their effects one by one, tasks of the host wait for devices, look them up and
send them messages, and a shutdown closes every session. `Traffic.step` is one indivisible step of
one of these parties; between any two of them any other party may take a step.

Writers take no steps here, for the queues in front of them have no bound (see `Session.Basic`).
With bounded queues a party that finds one full waits until its writer has sent a message. Every run
with such waiting is a run of this model with the step taken later, so what is true after every run
is true there too. What a party can do, it can do as far as there is room. A writer ends with the
teardown of its connection and never before; runs in which sending fails earlier are not among
these.
-/

namespace KeywordRunner.Server

open Wire (Message)

/-- A connection with what it has decided to do and not done yet. -/
structure Peer where
  connection : Connection
  address : Option SocketAddress
  pending : List Effect
  /-- Messages handed to the writer while there was no session. -/
  replies : List Message
  /-- The session of the connection, once it is registered. -/
  key : Option SessionKey

/-- How far a wait for a device has come. A wait subscribes to registrations before it looks, so
that none in between is missed. -/
inductive WaitStage where
  | subscribing
  /-- Subscribed, and about to look; `woken` if a registration was announced since. -/
  | looking (woken : Bool)
  /-- Found nothing, and sleeps until it is woken or its time is over. -/
  | parked (woken : Bool)
  /-- Out of time, and about to look a last time. -/
  | lastLook
  | ended (found : Option SessionKey)
  deriving DecidableEq, Repr

structure Wait where
  deviceId : String
  expired : Bool
  stage : WaitStage
  deriving DecidableEq, Repr

inductive Closing where
  /-- About to list the registered sessions. -/
  | collecting
  /-- About to empty the directory; the sessions still to be closed. -/
  | clearing (keys : List SessionKey)
  /-- About to send the first of these sessions a kill signal. -/
  | killing (keys : List SessionKey)
  /-- About to mark the first of these sessions closed. -/
  | marking (keys : List SessionKey)
  deriving DecidableEq, Repr

/-- A task that sends a device one message: the frame of a call, or a kill signal. -/
inductive Visit where
  | seeking (deviceId : String) (m : Message)
  /-- Has found a session and is about to hand its writer the message. -/
  | holding (key : SessionKey) (m : Message)
  | done

/-- A server with everyone who acts on it. -/
structure Traffic where
  station : Station
  callTimeout : Duration
  peers : List Peer
  waits : List Wait
  closings : List Closing
  visits : List Visit

namespace Peer

def accept (address : Option SocketAddress) : Peer := ⟨.start, address, [], [], none⟩

/-- Changes the session of the connection, if it has one. -/
def onSession (p : Peer) (st : Station) (f : Session → Session) : Station :=
  match p.key with
  | none => st
  | some key => st.update key f

/-- Performs one effect. Announcing concerns the waits alone and a complaint nobody; neither changes
anything here. -/
def perform (p : Peer) (callTimeout : Duration) (st : Station) : Effect → Station × Peer
  | .reply m =>
    match p.key with
    | none => (st, { p with replies := p.replies ++ [m] })
    | some key => (st.update key fun s => (s.post m).getD s, p)
  | .enlist deviceId =>
    let session := { Session.connect deviceId p.address callTimeout with outbox := p.replies }
    let (st, key) := st.add session
    ((st.register key).1, { p with key := some key })
  | .announce | .complain _ => (st, p)
  | .deliver m => (p.onSession st fun s => s.deliver (.message m), p)
  | .unlist =>
    match p.key with
    | none => (st, p)
    | some key => ((st.removeSession key).1, p)
  | .retire => (p.onSession st Session.markClosed, p)
  | .hangUp => (p.onSession st Session.hangUp, p)
  | .stopWriter => (p.onSession st Session.dropWriter, p)

end Peer

namespace Wait

def start (deviceId : String) : Wait := ⟨deviceId, false, .subscribing⟩

/-- What an announced registration does to a wait. -/
def wake (w : Wait) : Wait :=
  match w.stage with
  | .looking _ => { w with stage := .looking true }
  | .parked _ => { w with stage := .parked true }
  | .subscribing | .lastLook | .ended _ => w

/-- The next step of a wait; none while it sleeps and when it is over. A wait that was woken looks
again even if its time is over. -/
def next (w : Wait) (st : Station) : Option Wait :=
  match w.stage with
  | .subscribing => some { w with stage := .looking false }
  | .looking woken =>
    match st.lookup? w.deviceId with
    | some key => some { w with stage := .ended (some key) }
    | none => some { w with stage := .parked woken }
  | .parked woken =>
    if woken then some { w with stage := .subscribing }
    else if w.expired then some { w with stage := .lastLook }
    else none
  | .lastLook => some { w with stage := .ended (st.lookup? w.deviceId) }
  | .ended _ => none

end Wait

namespace Closing

/-- The next step of a shutdown; none once every session is closed. -/
def next (c : Closing) (st : Station) : Option (Station × Closing) :=
  match c with
  | .collecting => some (st, .clearing st.registered)
  | .clearing keys => some (st.clear, .killing keys)
  | .killing [] => none
  | .killing (key :: keys) => some (st.sendKill key, .marking (key :: keys))
  | .marking [] => none
  | .marking (key :: keys) => some (st.markClosed key, .killing keys)

def isOver (c : Closing) : Bool := c == .killing []

end Closing

namespace Visit

def next (v : Visit) (st : Station) : Option (Station × Visit) :=
  match v with
  | .seeking deviceId m =>
    match st.lookup? deviceId with
    | some key => some (st, .holding key m)
    | none => some (st, .done)
  | .holding key m => some (st.update key fun s => (s.post m).getD s, .done)
  | .done => none

end Visit

namespace Traffic

/-- What can happen next. -/
inductive Act where
  | accept (address : Option SocketAddress)
  /-- A connection that has nothing left to do reads bytes. -/
  | receive (peer : Nat) (bytes : ByteArray)
  /-- A connection that has nothing left to do meets the end of its stream, or has stopped
  listening. -/
  | finish (peer : Nat)
  | perform (peer : Nat)
  /-- Someone begins to wait for a device. -/
  | await (deviceId : String)
  | look (wait : Nat)
  | expire (wait : Nat)
  | shutdown
  | close (closing : Nat)
  /-- A task sets out to send a device a message. -/
  | visit (deviceId : String) (m : Message)
  | proceed (visit : Nat)

/-- A server that nobody has turned to yet. -/
def idle (callTimeout : Duration) : Traffic := ⟨.empty, callTimeout, [], [], [], []⟩

def perform (t : Traffic) (i : Nat) : Option Traffic :=
  t.peers[i]?.bind fun p =>
    match p.pending with
    | [] => none
    | effect :: pending =>
      let (station, p) := { p with pending }.perform t.callTimeout t.station effect
      let waits :=
        match effect with
        | .announce => t.waits.map Wait.wake
        | _ => t.waits
      some { t with station, peers := t.peers.set i p, waits }

/-- One step. An act that the situation does not admit has no outcome. -/
def step (t : Traffic) : Act → Option Traffic
  | .accept address => some { t with peers := t.peers ++ [.accept address] }
  | .receive i bytes =>
    t.peers[i]?.bind fun p =>
      if p.pending.isEmpty && p.connection.dialogue.isListening then
        let (connection, pending) := p.connection.receive bytes
        some { t with peers := t.peers.set i { p with connection, pending } }
      else none
  | .finish i =>
    t.peers[i]?.bind fun p =>
      if p.pending.isEmpty && !p.connection.dialogue.lifecycle.phase.isTerminal then
        let (connection, pending) := p.connection.finish
        some { t with peers := t.peers.set i { p with connection, pending } }
      else none
  | .perform i => t.perform i
  | .await deviceId => some { t with waits := t.waits ++ [.start deviceId] }
  | .look i =>
    t.waits[i]?.bind fun w =>
      (w.next t.station).map fun w => { t with waits := t.waits.set i w }
  | .expire i =>
    t.waits[i]?.map fun w => { t with waits := t.waits.set i { w with expired := true } }
  | .shutdown => some { t with closings := t.closings ++ [.collecting] }
  | .close i =>
    t.closings[i]?.bind fun c =>
      (c.next t.station).map fun (station, c) => { t with station, closings := t.closings.set i c }
  | .visit deviceId m => some { t with visits := t.visits ++ [.seeking deviceId m] }
  | .proceed i =>
    t.visits[i]?.bind fun v =>
      (v.next t.station).map fun (station, v) => { t with station, visits := t.visits.set i v }

/-- Repeats an act as long as it is admitted, at most so many times. -/
def repeated (t : Traffic) (act : Act) : Nat → Traffic
  | 0 => t
  | n + 1 =>
    match t.step act with
    | some t => t.repeated act n
    | none => t

def performAll (t : Traffic) (i : Nat) : Traffic :=
  t.repeated (.perform i) ((t.peers[i]?.map (·.pending.length)).getD 0)

/-- A shutdown from beginning to end: it lists the sessions, empties the directory, and takes two
steps for each session. -/
def shutDown (t : Traffic) : Traffic :=
  let begun := (t.step .shutdown).getD t
  begun.repeated (.close t.closings.length) (2 + 2 * t.station.registered.length)

/-- What the writer of a connection has to send now. -/
def unsent (t : Traffic) (p : Peer) : List Message :=
  match p.key.bind t.station.session? with
  | none => p.replies
  | some s => s.outbox

/-- Takes everything that writers have to send, connection by connection. -/
def takeUnsent (t : Traffic) : Traffic × List (List Message) :=
  let sent := fun (s : Session) => { s with outbox := [] }
  ({ t with
      station := { t.station with sessions := t.station.sessions.map sent }
      peers := t.peers.map fun p => { p with replies := [] } },
    t.peers.map t.unsent)

/-- The situation after a list of acts, each of them admitted in its turn. -/
def run (t : Traffic) (acts : List Act) : Option Traffic := acts.foldlM step t

end Traffic

end KeywordRunner.Server
