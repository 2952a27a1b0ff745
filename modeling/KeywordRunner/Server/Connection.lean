import KeywordRunner.Server.Phase
import KeywordRunner.Wire.FrameBuffer

/-!
# Server.Connection — what a device's bytes lead to

A connection turns the bytes that a device sends into effects on everything around it: replies, a
session that is registered, messages for that session, and in the end the teardown. What a message
means depends on the phase alone. Until it is registered, a device is answered; afterwards its
messages belong to its session, up to the first kill signal. Lines that are no messages change
nothing.
-/

namespace KeywordRunner.Server

open Wire (FrameBuffer Message)

/-- What a connection does outside itself. Each effect happens at once; others may act between
two of them. -/
inductive Effect where
  | reply (m : Message)
  /-- Makes the session of a device and registers it. -/
  | enlist (deviceId : String)
  /-- Wakes everyone who waits for a device. -/
  | announce
  | deliver (m : Message)
  /-- Removes the session from the directory, if it is still the registered one. -/
  | unlist
  | retire
  /-- Lets the session know that no more messages will come. -/
  | hangUp
  /-- Reports that the phase did not admit a step. -/
  | complain (fault : TransitionFault)
  | stopWriter

/-- How far the dialogue with a device has come. -/
structure Dialogue where
  lifecycle : Lifecycle
  /-- The device whose session this connection holds. -/
  session : Option String
  /-- Whether it can pass messages to a session. -/
  sends : Bool

/-- The largest number of bytes that a connection reads at once. -/
def readChunk : Nat := 8192

/-- A connection, as far as its reader knows it. -/
structure Connection where
  buffer : FrameBuffer
  dialogue : Dialogue

namespace Lifecycle

/-- Goes to the next phase; a refused step is reported and passed over. -/
def proceed (l : Lifecycle) (step : Lifecycle → Except TransitionFault Lifecycle) :
    Lifecycle × List Effect :=
  match step l with
  | .ok l => (l, [])
  | .error fault => (l, [.complain fault])

end Lifecycle

namespace Dialogue

def start : Dialogue := ⟨.start, none, false⟩

def isListening (d : Dialogue) : Bool :=
  d.lifecycle.phase == .unregistered || d.lifecycle.phase == .registered

/-- What a message of a device that is not registered leads to. -/
def introduce (d : Dialogue) (m : Message) : Dialogue × List Effect :=
  match m.registerDeviceId? with
  | none => (d, [.reply .error])
  | some deviceId =>
    match d.lifecycle.register with
    | .error fault => (d, [.complain fault, .reply .error])
    | .ok lifecycle => (⟨lifecycle, some deviceId, true⟩, [.enlist deviceId, .announce, .reply .ok])

def handle (d : Dialogue) (m : Message) : Dialogue × List Effect :=
  match d.lifecycle.phase with
  | .unregistered => d.introduce m
  | .registered =>
    if m.isKillSignal then
      let (lifecycle, complaints) := d.lifecycle.proceed Lifecycle.startClosing
      ({ d with lifecycle }, complaints)
    else (d, if d.sends then [.deliver m] else [])
  | .closing | .closed => (d, [])

/-- The teardown after a kill signal or the end of the stream. -/
def finish (d : Dialogue) : Dialogue × List Effect :=
  let (closing, complaints) :=
    if d.lifecycle.isRegistered then d.lifecycle.proceed Lifecycle.startClosing
    else (d.lifecycle, [])
  let teardown := if d.session.isSome then [Effect.unlist, .retire] else []
  let silence := if d.sends then [Effect.hangUp] else []
  let (closed, more) := closing.proceed Lifecycle.closeComplete
  (⟨closed, none, false⟩, complaints ++ teardown ++ silence ++ more ++ [.stopWriter])

end Dialogue

namespace Connection

def start : Connection := ⟨∅, .start⟩

instance : Inhabited Connection := ⟨start⟩

/-- Handles every message that the buffer holds, as long as the connection listens. -/
def drain (c : Connection) : Connection × List Effect :=
  if c.dialogue.isListening then
    match h : c.buffer.nextMessage with
    | (.ok none, rest) => ({ c with buffer := rest }, [])
    | (.ok (some m), rest) =>
      have : rest.size < c.buffer.size := by
        have := FrameBuffer.size_nextMessage_lt (b := c.buffer) (by simp [h])
        simpa [h] using this
      let (dialogue, effects) := c.dialogue.handle m
      let (c, more) := drain ⟨rest, dialogue⟩
      (c, effects ++ more)
    | (.error _, rest) =>
      have : rest.size < c.buffer.size := by
        have := FrameBuffer.size_nextMessage_lt (b := c.buffer) (by simp [h])
        simpa [h] using this
      drain ⟨rest, c.dialogue⟩
  else (c, [])
termination_by c.buffer.size

def receive (c : Connection) (bytes : ByteArray) : Connection × List Effect :=
  if c.dialogue.isListening then drain { c with buffer := c.buffer.feed bytes } else (c, [])

/-- Takes pieces of a stream one after the other. -/
def receiveAll (c : Connection) : List ByteArray → Connection × List Effect
  | [] => (c, [])
  | bytes :: later =>
    let (c, effects) := c.receive bytes
    let (c, more) := c.receiveAll later
    (c, effects ++ more)

def finish (c : Connection) : Connection × List Effect :=
  let (dialogue, effects) := c.dialogue.finish
  ({ c with dialogue }, effects)

/-- Everything that a stream leads to, whatever pieces it comes in, up to the teardown. -/
def serve (pieces : List ByteArray) : Connection × List Effect :=
  let (c, effects) := start.receiveAll pieces
  let (c, last) := c.finish
  (c, effects ++ last)

end Connection

end KeywordRunner.Server
