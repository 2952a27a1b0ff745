import KeywordRunner.Json.Printer
import KeywordRunner.Numeral.Nearest
import KeywordRunner.Numeral.Signed
import KeywordRunner.Text.Blank

/-!
# Remote.Value — values and handles shared with a device

What a device answers with and what scripts pass around: scalars, class references, handles of
instances that live on the device, records without a handle, and lists. `RemoteValue.ofJson` reads
an answer: an object with a usable `hash` and a text `class_name` is a handle with the other
members as attributes, any other object is a record. `RemoteValue.toJson` is the way back.
-/

namespace KeywordRunner

/-- A handle of an instance that lives on the device. -/
structure ObjectRef where
  /-- The handle, chosen by the device. -/
  hash : Int64
  /-- The class the instance counts as when the device picks an overload. -/
  className : String
  /-- Whatever else the device reported about it. -/
  attrs : Table Json

/-- A value as scripts and devices see it. -/
inductive RemoteValue where
  | null
  | bool (b : Bool)
  | str (s : String)
  | int (i : Int64)
  | float (x : Binary64)
  | classRef (name : String)
  | object (ref : ObjectRef)
  | record (fields : Table Json)
  | list (items : List RemoteValue)

namespace RemoteValue

instance : Inhabited RemoteValue := ⟨.null⟩

def hashKey : String := "hash"

def classNameKey : String := "class_name"

/-! ### From and to JSON -/

/-- A handle: an integer of 64 bits, a binary64 number that is exactly such an integer, or a text
that is one once trimmed. -/
def handleOfJson? : Json → Option Int64
  | .num (.int w) => w.toInt64?
  | .num (.real x _) =>
    x.toInt?.bind fun i =>
      if -0x8000000000000000 < i ∧ i < 0x8000000000000000 then some (Int64.ofInt i) else none
  | .str s => Signed.read64? (Text.trimChars s.toList)
  | _ => none

def ofNumber : JsonNumber → RemoteValue
  | .int w =>
    match w.toInt64? with
    | some i => .int i
    | none => .float (Nearest.ofInt w.val)
  | .real x _ => .float x

def ofMembers (members : List (String × Json)) : RemoteValue :=
  let fields := Table.ofList members
  match (fields.get? hashKey).bind handleOfJson?, (fields.get? classNameKey).bind Json.str? with
  | some hash, some className =>
    .object ⟨hash, className, (fields.erase hashKey).erase classNameKey⟩
  | _, _ => .record fields

mutual

def ofJson : Json → RemoteValue
  | .null => .null
  | .bool b => .bool b
  | .num n => ofNumber n
  | .str s => .str s
  | .arr items => .list (ofItems items)
  | .obj members => ofMembers members

def ofItems : List Json → List RemoteValue
  | [] => []
  | j :: js => ofJson j :: ofItems js

end

/-- A binary64 number as JSON; one that is not finite has no number there. -/
def floatJson (x : Binary64) : Json :=
  if h : x.isFinite = true then .num (.real x h) else .null

/-- The members that a handle shows: its attributes, and over them its handle and class. -/
def objectMembers (o : ObjectRef) : Table Json :=
  (o.attrs.insert hashKey (Json.ofInt64 o.hash)).insert classNameKey (.str o.className)

mutual

def toJson : RemoteValue → Json
  | .null => .null
  | .bool b => .bool b
  | .str s => .str s
  | .int i => Json.ofInt64 i
  | .float x => floatJson x
  | .classRef name => .obj [(classNameKey, .str name)]
  | .object o => .obj (objectMembers o).entries
  | .record fields => .obj fields.entries
  | .list items => .arr (toItems items)

def toItems : List RemoteValue → List Json
  | [] => []
  | v :: vs => toJson v :: toItems vs

end

/-! ### Parts of a value -/

/-- The name of a value's kind, for messages. -/
def kind : RemoteValue → String
  | .null => "null"
  | .bool _ => "bool"
  | .str _ => "string"
  | .int _ => "int"
  | .float _ => "float"
  | .classRef _ => "class"
  | .object _ => "object"
  | .record _ => "record"
  | .list _ => "list"

/-- An attribute of a handle; the two fixed ones come before any the device reported. -/
def objectAttr? (o : ObjectRef) (name : String) : Option RemoteValue :=
  if name = hashKey then some (.int o.hash)
  else if name = classNameKey then some (.str o.className)
  else (o.attrs.get? name).map ofJson

/-- A named part of a value, as `$name.attr` reads it. -/
def attr? (v : RemoteValue) (name : String) : Option RemoteValue :=
  match v with
  | .object o => objectAttr? o name
  | .classRef className => if name = classNameKey then some (.str className) else none
  | .record fields => (fields.get? name).map ofJson
  | _ => none

/-- The names of everything a handle shows, the fixed ones first. -/
def fieldNames (o : ObjectRef) : List String := hashKey :: classNameKey :: o.attrs.keys

def object? : RemoteValue → Option ObjectRef
  | .object o => some o
  | _ => none

def str? : RemoteValue → Option String
  | .str s => some s
  | _ => none

def isNull : RemoteValue → Bool
  | .null => true
  | _ => false

/-- The same instance counted as another class. -/
def withClassName (o : ObjectRef) (className : String) : ObjectRef := { o with className }

/-- A handle on its own, its fields in declaration order; no attributes, no such member. -/
def refJson (o : ObjectRef) : Json :=
  .obj ([(hashKey, Json.ofInt64 o.hash), (classNameKey, .str o.className)] ++
    (if o.attrs.isEmpty then [] else [("attrs", .obj o.attrs.entries)]))

/-! ### Text and equality -/

/-- The text of a value: what messages show and what `check` compares. -/
def text : RemoteValue → String
  | .null => "null"
  | .bool true => "true"
  | .bool false => "false"
  | .str s => s
  | .int i => Signed.text64 i
  | .float x => x.text
  | .classRef name => "class " ++ name
  | .object o => o.className ++ "@" ++ Signed.text64 o.hash
  | .record fields => (Json.obj fields.entries).compact
  | .list items => (Json.arr (toItems items)).compact

mutual

/-- Equality of values, with numerical equality of binary64 numbers. -/
def same : RemoteValue → RemoteValue → Bool
  | .null, .null => true
  | .bool a, .bool b => a == b
  | .str a, .str b => a == b
  | .int a, .int b => a == b
  | .float a, .float b => a.same b
  | .classRef a, .classRef b => a == b
  | .object a, .object b =>
    a.hash == b.hash && a.className == b.className &&
      Json.sameMembers a.attrs.entries b.attrs.entries
  | .record a, .record b => Json.sameMembers a.entries b.entries
  | .list as, .list bs => sameItems as bs
  | _, _ => false

def sameItems : List RemoteValue → List RemoteValue → Bool
  | [], [] => true
  | a :: as, b :: bs => same a b && sameItems as bs
  | _, _ => false

end

end RemoteValue

end KeywordRunner
