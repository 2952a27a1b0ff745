import KeywordRunner.Session.Port

/-!
# Reflection.Call — calls into remote classes and instances

A reflection call travels as a message of the reflection version whose arguments are all
type-tagged texts, class and member names included. The device answers with at most one value; no
value stands for null.
-/

namespace KeywordRunner

open Wire (Message)

/-- A call into a remote class or instance. -/
inductive ReflectionCall where
  | method (target : RemoteValue) (name : String) (args : List RemoteValue)
  | staticMethod (className : String) (name : String) (args : List RemoteValue)
  | construct (className : String) (args : List RemoteValue)
  | release (target : RemoteValue)
  | assign (target : RemoteValue) (field : String) (value : RemoteValue)

namespace ReflectionCall

def wireName : ReflectionCall → String
  | .method .. => "call"
  | .staticMethod .. => "call_static"
  | .construct .. => "new"
  | .release _ => "delete"
  | .assign .. => "set"

/-- The values that travel, in order. -/
def wireArgs : ReflectionCall → List RemoteValue
  | .method target name args => target :: .str name :: args
  | .staticMethod className name args => .classRef className :: .str name :: args
  | .construct className args => .classRef className :: args
  | .release target => [target]
  | .assign target field value => [target, .str field, value]

end ReflectionCall

namespace Reflection

variable {n : Type → Type} [Monad n]

/-- The value of an answer: its first argument, or null. -/
def resultOf (m : Message) : RemoteValue :=
  match m.args with
  | [] => .null
  | j :: _ => RemoteValue.ofJson j

/-- Sends values under a name. When one of them cannot be an argument, nothing is sent. -/
def invoke (port : DevicePort n) (name : String) (args : List RemoteValue) :
    n (Except CallFault RemoteValue) :=
  match RemoteValue.encodeArgs args with
  | .error fault => pure (.error (.argument fault))
  | .ok texts => do
    match ← port.call name (texts.map .str) .reflection with
    | .ok m => pure (.ok (resultOf m))
    | .error fault => pure (.error fault)

def perform (port : DevicePort n) (c : ReflectionCall) : n (Except CallFault RemoteValue) :=
  invoke port c.wireName c.wireArgs

end Reflection

end KeywordRunner
