/-!
# Server.Phase — the life of a device connection

A connection waits for an introduction, serves a session, tears it down, and is closed. Only
forward steps are admitted; one that never registered closes directly.
-/

namespace KeywordRunner.Server

inductive Phase where
  | unregistered
  | registered
  | closing
  | closed
  deriving DecidableEq, Inhabited, Repr

namespace Phase

def text : Phase → String
  | .unregistered => "unregistered"
  | .registered => "registered"
  | .closing => "closing"
  | .closed => "closed"

def isTerminal (p : Phase) : Bool := p == .closed

end Phase

structure TransitionFault where
  source : Phase
  target : Phase
  deriving DecidableEq, Repr

def TransitionFault.message (f : TransitionFault) : String :=
  "Invalid connection state transition from " ++ f.source.text ++ " to " ++ f.target.text

/-- A connection's phase and how many steps led there. -/
structure Lifecycle where
  phase : Phase
  steps : Nat
  deriving DecidableEq, Repr

namespace Lifecycle

def start : Lifecycle := ⟨.unregistered, 0⟩

instance : Inhabited Lifecycle := ⟨start⟩

def isRegistered (l : Lifecycle) : Bool := l.phase == .registered

/-- Goes to a phase when the present one is among those it can be reached from. -/
def advance (l : Lifecycle) (sources : List Phase) (target : Phase) :
    Except TransitionFault Lifecycle :=
  if l.phase ∈ sources then .ok ⟨target, l.steps + 1⟩ else .error ⟨l.phase, target⟩

/-- An introduction was accepted. -/
def register (l : Lifecycle) : Except TransitionFault Lifecycle :=
  l.advance [.unregistered] .registered

/-- A kill signal came, or the stream of a registered device ended. -/
def startClosing (l : Lifecycle) : Except TransitionFault Lifecycle :=
  l.advance [.registered] .closing

/-- Everything is torn down. -/
def closeComplete (l : Lifecycle) : Except TransitionFault Lifecycle :=
  l.advance [.closing, .unregistered] .closed

end Lifecycle

end KeywordRunner.Server
