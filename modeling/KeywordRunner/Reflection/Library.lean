import KeywordRunner.Reflection.Call

/-!
# Reflection.Library — reflection as keywords

The library `reflection`: `call`, `call_static`, `new`, `delete` and `set_field` make reflection
calls, `class`, `int` and `float` turn script words into typed values, and `cast` counts a handle
as another class. A keyword checks its number of arguments first, then that a session is attached,
then its class and member names, and only then sends anything.
-/

namespace KeywordRunner.Reflection

open Script (Keyword KeywordFault Library Outcome)

/-! ### Arguments -/

/-- A member name: a text that is not empty. -/
def memberName (keyword : String) : RemoteValue → Except KeywordFault String
  | .str name => if name = "" then refuse (.str name) else .ok name
  | v => refuse v
where
  refuse (v : RemoteValue) : Except KeywordFault String :=
    .error (.invalidArgument keyword ("expected a member name, got " ++ v.kind ++ " " ++ v.text))

/-- A class name: a class reference or a text, not empty. -/
def className (keyword : String) : RemoteValue → Except KeywordFault String
  | .classRef name => if name = "" then refuse (.classRef name) else .ok name
  | .str name => if name = "" then refuse (.str name) else .ok name
  | v => refuse v
where
  refuse (v : RemoteValue) : Except KeywordFault String :=
    .error (.invalidArgument keyword ("expected a class name, got " ++ v.kind ++ " " ++ v.text))

/-! ### Conversions -/

def single (keyword : String) (args : List RemoteValue) : Except KeywordFault RemoteValue := do
  Keyword.checkExact keyword 1 args.length
  pure (args.head?.getD .null)

def toClass (args : List RemoteValue) : Except KeywordFault RemoteValue := do
  let v ← single "class" args
  let name ← className "class" v
  pure (.classRef name)

def toInt (args : List RemoteValue) : Except KeywordFault RemoteValue := do
  match ← single "int" args with
  | .int i => pure (.int i)
  | .str s =>
    match Signed.read64? (Text.trimChars s.toList) with
    | some i => pure (.int i)
    | none => .error (.invalidArgument "int" (Text.quoted s ++ " is not an integer"))
  | v => .error (.invalidArgument "int" ("cannot convert " ++ v.kind ++ " to int"))

def toFloat (args : List RemoteValue) : Except KeywordFault RemoteValue := do
  match ← single "float" args with
  | .float x => pure (.float x)
  | .int i => pure (.float (Nearest.ofInt i.toInt))
  | .str s =>
    match Literal.read? (Text.trimChars s.toList) with
    | some x => pure (.float x)
    | none => .error (.invalidArgument "float" (Text.quoted s ++ " is not a number"))
  | v => .error (.invalidArgument "float" ("cannot convert " ++ v.kind ++ " to float"))

/-- A handle counted as another class. -/
def cast (args : List RemoteValue) : Except KeywordFault RemoteValue := do
  Keyword.checkExact "cast" 2 args.length
  let name ← className "cast" (args[1]?.getD .null)
  match args.head?.getD .null with
  | .object o => pure (.object (RemoteValue.withClassName o name))
  | v => .error (.invalidArgument "cast" ("expected an object handle, got " ++ v.kind))

/-! ### Calls -/

/-- The keywords that reach the device. -/
inductive Operation where
  | method
  | staticMethod
  | construct
  | release
  | assign
  deriving DecidableEq, Repr

namespace Operation

def all : List Operation := [.method, .staticMethod, .construct, .release, .assign]

def keyword : Operation → String
  | .method => "call"
  | .staticMethod => "call_static"
  | .construct => "new"
  | .release => "delete"
  | .assign => "set_field"

def checkCount (op : Operation) (got : Nat) : Except KeywordFault Unit :=
  match op with
  | .method | .staticMethod => Keyword.checkMin op.keyword 2 got
  | .construct => Keyword.checkMin op.keyword 1 got
  | .release => Keyword.checkExact op.keyword 1 got
  | .assign => Keyword.checkExact op.keyword 3 got

/-- The call that the arguments of a keyword ask for. -/
def callOf (op : Operation) (args : List RemoteValue) : Except KeywordFault ReflectionCall :=
  let first := args.head?.getD .null
  let second := args[1]?.getD .null
  match op with
  | .method => do
    let name ← memberName op.keyword second
    pure (.method first name (args.drop 2))
  | .staticMethod => do
    let cls ← className op.keyword first
    let name ← memberName op.keyword second
    pure (.staticMethod cls name (args.drop 2))
  | .construct => do
    let cls ← className op.keyword first
    pure (.construct cls (args.drop 1))
  | .release => pure (.release first)
  | .assign => do
    let field ← memberName op.keyword second
    pure (.assign first field (args[2]?.getD .null))

variable {n : Type → Type} [Monad n]

def run (port : DevicePort n) (op : Operation) : Keyword n := fun args =>
  match op.checkCount args.length with
  | .error fault => pure (.fault fault)
  | .ok () => do
    match ← port.attached with
    | .error fault => pure (.fault fault)
    | .ok () =>
      match op.callOf args with
      | .error fault => pure (.fault fault)
      | .ok c => do
        match ← perform port c with
        | .ok v => pure (.value v)
        | .error fault => pure (.fault (.call fault))

end Operation

/-- The name under which scripts import the library. -/
def libraryName : String := "reflection"

def library {n : Type → Type} [Monad n] (port : DevicePort n) : Library n where
  name := libraryName
  keywords :=
    Operation.all.map (fun op => (op.keyword, op.run port)) ++
      [("class", .ofFunction toClass), ("int", .ofFunction toInt),
        ("float", .ofFunction toFloat), ("cast", .ofFunction cast)]

end KeywordRunner.Reflection
