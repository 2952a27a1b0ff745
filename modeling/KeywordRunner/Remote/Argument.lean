import KeywordRunner.Numeral.Literal
import KeywordRunner.Remote.Value

/-!
# Remote.Argument — type-tagged call arguments

A call into a device carries each argument as one text: two characters for the type, then the
payload. `01` a text, `02` an integer, `03` a class name, `04` a handle as `hash:class`, `05` a
binary64 number. Other values cannot be arguments.
-/

namespace KeywordRunner

/-- Why a value has no argument text, or a text is no argument. -/
inductive ArgumentFault where
  | unsupported (kind : String)
  | missingTag (arg : String)
  | unknownTag (tag : String) (arg : String)
  | invalidPayload (kind : String) (payload : String)
  deriving DecidableEq, Repr

def ArgumentFault.message : ArgumentFault → String
  | .unsupported kind => "Can't make remote call arg from " ++ kind ++ " value"
  | .missingTag arg => "Argument too short to carry a type tag: " ++ Text.quoted arg
  | .unknownTag tag arg => "Unknown argument tag " ++ Text.quoted tag ++ " in " ++ Text.quoted arg
  | .invalidPayload kind payload => "Invalid " ++ kind ++ " payload: " ++ Text.quoted payload

namespace RemoteValue

def encodeArg : RemoteValue → Except ArgumentFault String
  | .str s => .ok ("01" ++ s)
  | .int i => .ok ("02" ++ Signed.text64 i)
  | .classRef name => .ok ("03" ++ name)
  | .object o => .ok ("04" ++ Signed.text64 o.hash ++ ":" ++ o.className)
  | .float x => .ok ("05" ++ x.text)
  | v => .error (.unsupported v.kind)

/-- The argument texts of a call, in order; the first value that has none decides. -/
def encodeArgs : List RemoteValue → Except ArgumentFault (List String)
  | [] => .ok []
  | v :: vs => do
    let t ← v.encodeArg
    let ts ← encodeArgs vs
    pure (t :: ts)

/-- The two bytes of a tag and what follows them, when both are characters of their own or one
character fills them. -/
def splitTag? : List Char → Option (List Char × List Char)
  | [] => none
  | c :: cs =>
    if c.utf8Size = 2 then some ([c], cs)
    else if c.utf8Size = 1 then
      match cs with
      | d :: ds => if d.utf8Size = 1 then some ([c, d], ds) else none
      | [] => none
    else none

/-- A handle and a class name around the first colon. -/
def readHandle? (payload : List Char) : Option ObjectRef :=
  match payload.span (· != ':') with
  | (_, []) => none
  | (hash, _ :: className) =>
    (Signed.read64? hash).map fun h => ⟨h, String.ofList className, ∅⟩

def decodeArg (arg : String) : Except ArgumentFault RemoteValue :=
  match splitTag? arg.toList with
  | none => .error (.missingTag arg)
  | some (tag, payload) =>
    let payloadText := String.ofList payload
    match tag with
    | ['0', '1'] => .ok (.str payloadText)
    | ['0', '2'] =>
      match Signed.read64? payload with
      | some i => .ok (.int i)
      | none => .error (.invalidPayload "integer" payloadText)
    | ['0', '3'] => .ok (.classRef payloadText)
    | ['0', '4'] =>
      match readHandle? payload with
      | some o => .ok (.object o)
      | none => .error (.invalidPayload "object" payloadText)
    | ['0', '5'] =>
      match Literal.read? payload with
      | some x => .ok (.float x)
      | none => .error (.invalidPayload "float" payloadText)
    | _ => .error (.unknownTag (String.ofList tag) arg)

end RemoteValue

end KeywordRunner
