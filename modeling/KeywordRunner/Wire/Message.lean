import KeywordRunner.Json.Printer
import KeywordRunner.Json.Record

/-!
# Wire.Message — what host and device say to each other

A message is a call, a result or a kill signal, with the protocol version its arguments follow.
On the wire it is a JSON object with the fields `msg_id`, `msg_type`, `version`, `name` and
`args`; `Message.toJson` writes all of them in that order, and `Message.fields` reads them in any
order, each of them optional.
-/

namespace KeywordRunner.Wire

inductive MessageType where
  | call
  | result
  | killSignal
  deriving DecidableEq, Inhabited, Repr

namespace MessageType

/-- The number that stands for the type on the wire. -/
def code : MessageType → Nat
  | .call => 1
  | .result => 2
  | .killSignal => 99

def ofCode? : Nat → Option MessageType
  | 1 => some .call
  | 2 => some .result
  | 99 => some .killSignal
  | _ => none

def text : MessageType → String
  | .call => "call"
  | .result => "result"
  | .killSignal => "kill"

theorem ofCode?_code (t : MessageType) : ofCode? t.code = some t := by cases t <;> rfl

end MessageType

/-- How the receiver is to understand a call. -/
inductive ProtocolVersion where
  /-- A named call with free arguments. -/
  | plain
  /-- A call into a remote instance or class, its arguments type-tagged. -/
  | reflection
  deriving DecidableEq, Inhabited, Repr

namespace ProtocolVersion

def code : ProtocolVersion → Nat
  | .plain => 1
  | .reflection => 2

def ofCode? : Nat → Option ProtocolVersion
  | 1 => some .plain
  | 2 => some .reflection
  | _ => none

def text : ProtocolVersion → String
  | .plain => "Plain"
  | .reflection => "Reflection"

theorem ofCode?_code (v : ProtocolVersion) : ofCode? v.code = some v := by cases v <;> rfl

end ProtocolVersion

inductive CodeFault where
  | messageType (code : Nat)
  | protocolVersion (code : Nat)
  deriving DecidableEq, Repr

def CodeFault.message : CodeFault → String
  | .messageType n => "unknown msg_type " ++ Digits.text n
  | .protocolVersion n => "unknown protocol version " ++ Digits.text n

structure Message where
  /-- Chosen by the caller; a reply may repeat it. -/
  id : Option UInt64
  type : MessageType
  version : ProtocolVersion
  name : String
  args : List Json
  deriving Inhabited, Repr

namespace Message

/-- The name of a call by which a device introduces itself. -/
def registerName : String := "register"

/-- The name of a result that reports a failed call. -/
def failName : String := "Fail"

def okName : String := "ok"

def errorName : String := "error"

def killName : String := "kill"

/-! ### Making messages -/

def call (id : UInt64) (name : String) (args : List Json) (version : ProtocolVersion) : Message :=
  ⟨some id, .call, version, name, args⟩

def result (name : String) (args : List Json) : Message := ⟨none, .result, .plain, name, args⟩

def register (deviceId : String) : Message :=
  ⟨none, .call, .plain, registerName, [.str deviceId]⟩

/-- The answer to an accepted introduction. -/
def ok : Message := result okName [.bool true]

/-- The answer to anything else a device says before it is registered. -/
def error : Message := result errorName [.bool false]

def killSignal : Message := ⟨none, .killSignal, .plain, killName, []⟩

/-! ### Telling messages apart -/

def isKillSignal (m : Message) : Bool := m.type == .killSignal

def isFailure (m : Message) : Bool := m.name == failName

def isOk (m : Message) : Bool := m.type == .result && m.name == okName

/-- The device id of an introduction: a call of that name with one nonempty text. -/
def registerDeviceId? (m : Message) : Option String :=
  if m.type = .call ∧ m.name = registerName then
    match m.args with
    | [.str id] => if id = "" then none else some id
    | _ => none
  else none

/-- Equality of messages, numbers in their arguments compared by value. -/
def same (m n : Message) : Bool :=
  m.id == n.id && m.type == n.type && m.version == n.version && m.name == n.name &&
    Json.sameItems m.args n.args

/-! ### JSON form -/

def natural (n : Nat) : Json := Json.ofUInt64 (UInt64.ofNat n)

def toJson (m : Message) : Json :=
  .obj [
    ("msg_id", match m.id with
      | none => .null
      | some id => Json.ofUInt64 id),
    ("msg_type", natural m.type.code),
    ("version", natural m.version.code),
    ("name", .str m.name),
    ("args", .arr m.args)]

/-- A field that holds one of a set of byte-sized codes. -/
def readCode {α : Type} (ofCode? : Nat → Option α) (fault : Nat → CodeFault) :
    JsonReader CodeFault α := fun cs => do
  let (n, rest) ← Json.readNatural 255 cs
  match ofCode? n with
  | some x => pure (x, rest)
  | none => .error (.rejected (fault n))

/-- The fields of a message. `null` stands for an absent id, an empty name and no arguments. -/
def fields : List (Json.Field CodeFault Message) := [
  { name := "msg_id"
    read := fun _ cs => do
      let (id, rest) ← Json.readNullable (Json.readNatural (UInt64.size - 1)) cs
      pure (fun m => { m with id := id.map UInt64.ofNat }, rest) },
  { name := "msg_type"
    read := fun _ cs => do
      let (type, rest) ← readCode MessageType.ofCode? .messageType cs
      pure (fun m => { m with type := type }, rest) },
  { name := "version"
    read := fun _ cs => do
      let (version, rest) ← readCode ProtocolVersion.ofCode? .protocolVersion cs
      pure (fun m => { m with version := version }, rest) },
  { name := "name"
    read := fun _ cs => do
      let (name, rest) ← Json.readNullable Json.readString cs
      pure (fun m => { m with name := name.getD "" }, rest) },
  { name := "args"
    read := fun depth cs => do
      let (args, rest) ← Json.readNullable (Json.readArray depth) cs
      pure (fun m => { m with args := args.getD [] }, rest) }]

/-- What a message is when its text says nothing. -/
def blank : Message := ⟨none, .call, .plain, "", []⟩

def parse (text : String) : Except (JsonFault CodeFault) Message :=
  Json.parseRecord fields blank text

end Message

end KeywordRunner.Wire
