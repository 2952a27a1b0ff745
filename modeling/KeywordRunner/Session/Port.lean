import KeywordRunner.Script.Keyword
import KeywordRunner.Session.Call

/-!
# Session.Port — how a keyword reaches its device

Keywords see a device through a `DevicePort`: they can ask whether a session is attached and make
calls with the session's own timeout. `Context` is the state of a run without a network: the values
that keywords share, and a session whose far end acts as a list of reactions says.
-/

namespace KeywordRunner

open Wire (Message ProtocolVersion)
open Script (KeywordFault)

/-- What keywords of a monad `n` can do with the device of their script. -/
structure DevicePort (n : Type → Type) where
  /-- Succeeds iff a session is attached. -/
  attached : n (Except KeywordFault Unit)
  /-- A call with the session's own timeout. -/
  call : String → List Json → ProtocolVersion → n (Except CallFault Message)

/-- A session and what its far end does after each frame yet to be posted. When the reactions run
out the far end is silent. -/
structure Link where
  session : Session
  reactions : List (List Arrival)

namespace Link

/-- The reaction to the next frame, and the ones to later frames. -/
def nextReaction (l : Link) : List Arrival × List (List Arrival) :=
  match l.reactions with
  | [] => ([], [])
  | r :: rs => (r, rs)

/-- Makes a call. A reaction is used up exactly when a frame is posted. -/
def call (l : Link) (r : Request) : Link × Except CallFault Message :=
  match l.session.request r with
  | (s, .error fault) => (⟨s, l.reactions⟩, .error fault)
  | (s, .ok id) =>
    let (reaction, reactions) := l.nextReaction
    let (s, result) := s.settle r id reaction
    (⟨s, reactions⟩, result)

end Link

/-- What the keywords of one run share. -/
structure Context where
  deviceId : String
  shared : Table RemoteValue
  link : Option Link

namespace Context

def detached (deviceId : String) : Context := ⟨deviceId, ∅, none⟩

/-- A context for the device of a session. -/
def attach (link : Link) : Context := ⟨link.session.deviceId, ∅, some link⟩

instance : Inhabited Context := ⟨detached ""⟩

def getVar? (c : Context) (name : String) : Option RemoteValue := c.shared.get? name

/-- Gives a shared name a value; the value it had. -/
def setVar (c : Context) (name : String) (value : RemoteValue) : Context × Option RemoteValue :=
  ({ c with shared := c.shared.insert name value }, c.shared.get? name)

def clearVars (c : Context) : Context := { c with shared := ∅ }

def session (c : Context) : Except KeywordFault Session :=
  match c.link with
  | some link => .ok link.session
  | none => .error (.noSession c.deviceId)

def call (c : Context) (name : String) (args : List Json) (version : ProtocolVersion) :
    Context × Except CallFault Message :=
  match c.link with
  | none => (c, .error (.notConnected c.deviceId))
  | some link =>
    let (link, result) := link.call ⟨name, args, link.session.defaultTimeout, version⟩
    ({ c with link := some link }, result)

/-- The port of a pure run. -/
def port : DevicePort (StateM Context) where
  attached := fun c => (c.session.map fun _ => (), c)
  call name args version := fun c =>
    let (c, result) := c.call name args version
    (result, c)

end Context

end KeywordRunner
