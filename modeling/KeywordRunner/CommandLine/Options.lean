import KeywordRunner.Numeral.Signed

/-!
# CommandLine.Options — what the arguments ask for

Options may stand before or after the command they belong to; a value follows its option as the
next argument or after `=`. An option given both before and after the command has the later value,
one given twice on the same side is a usage error. After `--` every argument is a script.
-/

namespace KeywordRunner.CommandLine

inductive Command where
  | serve
  | check (scripts : List String)
  | run (device : String) (scripts : List String)
  deriving DecidableEq, Repr

structure Common where
  config : Option String
  port : Option UInt16
  timeout : Option UInt64
  deriving DecidableEq, Repr

namespace Common

def empty : Common := ⟨none, none, none⟩

/-- The options of both sides of a command; its own side counts where both say something. -/
def orElse (later earlier : Common) : Common :=
  ⟨later.config.or earlier.config, later.port.or earlier.port, later.timeout.or earlier.timeout⟩

end Common

structure Options where
  common : Common
  command : Command
  deriving DecidableEq, Repr

/-- Which text describes the program. -/
inductive Topic where
  | program
  | serve
  | check
  | run
  | help
  deriving DecidableEq, Repr

/-- Why arguments ask for nothing to be run. -/
inductive Stop where
  | version
  | help (topic : Topic)
  | usage
  deriving DecidableEq, Repr

/-- What has been read on one side of the command. -/
structure Seen where
  common : Common
  device : Option String
  scripts : List String

namespace Seen

def empty : Seen := ⟨.empty, none, []⟩

end Seen

/-! ### Values -/

/-- A port number; its sign may also be the minus of a zero. -/
def readPort? (text : String) : Option UInt16 :=
  (Signed.read? text.toList).bind fun i =>
    if 0 ≤ i ∧ i < UInt16.size then some (UInt16.ofNat i.toNat) else none

/-- A number of seconds; a minus sign is no part of one. -/
def readSeconds? (text : String) : Option UInt64 :=
  (Signed.readUnsigned? text.toList).bind fun n =>
    if n < UInt64.size then some (UInt64.ofNat n) else none

/-- Sets an option that has no value yet. -/
def setOnce {α : Type} (old : Option α) (new : Option α) : Except Stop (Option α) :=
  match old, new with
  | none, some v => .ok (some v)
  | _, _ => .error .usage

/-- A path, which is never empty. -/
def readPath? (text : String) : Option String := if text = "" then none else some text

def Seen.set (s : Seen) (topic : Topic) (name : String) (value : String) : Except Stop Seen :=
  match name with
  | "config" => do
    let v ← setOnce s.common.config (readPath? value)
    pure { s with common := { s.common with config := v } }
  | "port" => do
    let v ← setOnce s.common.port (readPort? value)
    pure { s with common := { s.common with port := v } }
  | "timeout" => do
    let v ← setOnce s.common.timeout (readSeconds? value)
    pure { s with common := { s.common with timeout := v } }
  | "device" =>
    if topic = .run then do
      let v ← setOnce s.device (some value)
      pure { s with device := v }
    else .error .usage
  | _ => .error .usage

def Seen.addScript (s : Seen) (topic : Topic) (path : String) : Except Stop Seen :=
  match topic, readPath? path with
  | .check, some path => .ok { s with scripts := s.scripts ++ [path] }
  | .run, some path => .ok { s with scripts := s.scripts ++ [path] }
  | _, _ => .error .usage

/-! ### Arguments -/

inductive Argument where
  | separator
  | long (name : String) (value : Option String)
  | short (flag : Char)
  | plain (text : String)
  deriving DecidableEq, Repr

def Argument.read (text : String) : Argument :=
  match text.toList with
  | ['-', '-'] => .separator
  | '-' :: '-' :: cs =>
    match cs.dropWhile (· != '=') with
    | [] => .long (String.ofList cs) none
    | _ :: value => .long (String.ofList (cs.takeWhile (· != '='))) (some (String.ofList value))
  | '-' :: c :: _ => .short c
  | _ => .plain text

/-- What an argument on its own leads to: an end, an option that waits for its value, the options
as they are now, or a word that is no option. -/
inductive Step where
  | stop (s : Stop)
  | await (name : String)
  | seen (s : Seen)
  | word (text : String)
  | rest

def takesValue (topic : Topic) (name : String) : Bool :=
  name == "config" || name == "port" || name == "timeout" || (name == "device" && topic == .run)

/-- Reads one argument on the side of a command that `topic` tells. -/
def step (topic : Topic) (s : Seen) (text : String) : Step :=
  match Argument.read text with
  | .separator => .rest
  | .plain text => .word text
  | .short 'h' => .stop (.help topic)
  | .short 'V' => if topic = .program then .stop .version else .stop .usage
  | .short _ => .stop .usage
  | .long "help" none => .stop (.help topic)
  | .long "version" none => if topic = .program then .stop .version else .stop .usage
  | .long name none => if takesValue topic name then .await name else .stop .usage
  | .long name (some value) =>
    match s.set topic name value with
    | .ok s => .seen s
    | .error stop => .stop stop

/-- The value that follows an option: any argument that is not itself an option. -/
def valueOf? (text : String) : Option String :=
  match Argument.read text with
  | .plain text => some text
  | _ => none

def readCommand (topic : Topic) (s : Seen) : List String → Except Stop Seen
  | [] => .ok s
  | text :: texts =>
    match step topic s text with
    | .stop stop => .error stop
    | .seen s => readCommand topic s texts
    | .word word => do
      let s ← s.addScript topic word
      readCommand topic s texts
    | .rest => texts.foldlM (fun s path => s.addScript topic path) s
    | .await name =>
      match texts with
      | [] => .error .usage
      | value :: texts =>
        match valueOf? value with
        | none => .error .usage
        | some value => do
          let s ← s.set topic name value
          readCommand topic s texts

def commandOf (topic : Topic) (s : Seen) : Except Stop Command :=
  match topic with
  | .program | .help => .error .usage
  | .serve => .ok .serve
  | .check => if s.scripts = [] then .error .usage else .ok (.check s.scripts)
  | .run =>
    match s.device with
    | some device => if s.scripts = [] then .error .usage else .ok (.run device s.scripts)
    | none => .error .usage

def topicOf? (name : String) : Option Topic :=
  match name with
  | "serve" => some .serve
  | "check" => some .check
  | "run" => some .run
  | "help" => some .help
  | _ => none

/-- The end that the command `help` leads to. It takes the name of one command: no command has
commands of its own. -/
def helpStop : List String → Stop
  | [] => .help .program
  | [name] =>
    match topicOf? name with
    | some topic => .help topic
    | none => .usage
  | _ => .usage

/-- Reads all arguments; `s` holds the options met so far, all before the command. -/
def readProgram (s : Seen) : List String → Except Stop Options
  | [] => .error .usage
  | text :: texts =>
    match step .program s text with
    | .stop stop => .error stop
    | .seen s => readProgram s texts
    | .rest => .error .usage
    | .word word =>
      match topicOf? word with
      | none => .error .usage
      | some .help => .error (helpStop texts)
      | some topic => do
        let own ← readCommand topic .empty texts
        let command ← commandOf topic own
        pure ⟨own.common.orElse s.common, command⟩
    | .await name =>
      match texts with
      | [] => .error .usage
      | value :: texts =>
        match valueOf? value with
        | none => .error .usage
        | some value => do
          let s ← s.set .program name value
          readProgram s texts

/-- What the arguments of the program ask for. -/
def Options.read (args : List String) : Except Stop Options := readProgram .empty args

end KeywordRunner.CommandLine
