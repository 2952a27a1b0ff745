import KeywordRunner.CommandLine.Options
import KeywordRunner.Config.Storage
import KeywordRunner.Reflection.Library
import KeywordRunner.Script.Batch

/-!
# CommandLine.Program — the commands

`serve` keeps a server open until it is interrupted, `check` loads scripts without running them,
`run` waits for a device and runs scripts against it. All that lies outside the program (files,
the environment, the network, the terminal) is behind a `Host` in some monad, so that the same
commands run in the real world and in a described one.
-/

namespace KeywordRunner.CommandLine

open Config (FileContent Settings StorageFault)
open Script (Case Event Interpreter Registry)

/-- A server that accepts devices. -/
structure Listening (m : Type → Type) where
  /-- Waits for a device to register; how keywords then reach it. -/
  awaitDevice : String → Duration → m (Option (DevicePort m))
  shutdown : m Unit

/-- What lies outside the program. -/
structure Host (m : Type → Type) where
  environment? : String → m (Option String)
  read : String → m FileContent
  printLine : String → m Unit
  /-- Starts a server on an address, or tells why not. -/
  listen : String → Duration → m (Except String (Listening m))
  interrupted : m Unit

/-! ### Columns -/

def padLeft (width : Nat) (s : String) : String :=
  String.ofList (List.replicate (width - s.toList.length) ' ') ++ s

def padRight (width : Nat) (s : String) : String :=
  s ++ String.ofList (List.replicate (width - s.toList.length) ' ')

/-! ### Failing -/

/-- Why a command failed: what it was doing, and the causes behind that, outermost first. -/
structure Failure where
  message : String
  causes : List String
  deriving DecidableEq, Repr

namespace Failure

def ofMessage (message : String) : Failure := ⟨message, []⟩

/-- The lines of one cause: the first behind a head, the others as far to the right. -/
def linesBehind (head : String) (cause : String) : List String :=
  match Text.splitOn '\n' cause.toList with
  | [] => []
  | line :: lines =>
    let margin := List.replicate head.length ' '
    (head ++ String.ofList line) :: lines.map fun line => String.ofList (margin ++ line)

/-- The cause lines; only several causes are numbered. -/
def causeLines : List String → List String
  | [] => []
  | [cause] => "" :: "Caused by:" :: linesBehind "    " cause
  | causes =>
    "" :: "Caused by:" :: (causes.zip (List.range causes.length)).flatMap fun (cause, i) =>
      linesBehind (padLeft 5 (Digits.text i) ++ ": ") cause

def report (f : Failure) : String :=
  String.join ((("Error: " ++ f.message) :: causeLines f.causes).map (· ++ "\n"))

end Failure

structure Exit where
  status : Nat
  diagnostics : String
  deriving DecidableEq, Repr

/-- What a command that worked or failed makes the program end with. -/
def Exit.ofResult : Except Failure Unit → Exit
  | .ok () => ⟨0, ""⟩
  | .error f => ⟨1, f.report⟩

/-! ### Files -/

def missingReason : String := "No such file or directory (os error 2)"

/-- A fault of loading settings, and what lies behind it. -/
def storageCauses : StorageFault → List String
  | .noDirectory => [StorageFault.noDirectory.message]
  | .io path reason => [(StorageFault.io path reason).message, reason]
  | .parse path fault => [(StorageFault.parse path fault).message, Config.describe fault]
  | .unsupportedVersion found => [(StorageFault.unsupportedVersion found).message]

/-- Settings with what the options say instead. -/
def override (s : Settings) (c : Common) : Settings :=
  { s with
    server := { s.server with port := c.port.getD s.server.port }
    calls := { s.calls with callTimeoutSeconds := c.timeout.getD s.calls.callTimeoutSeconds } }

/-- The part of a name before its last point; a leading point does not count. -/
def stem (name : List Char) : List Char :=
  match name.reverse.dropWhile (· != '.') with
  | [] => name
  | _ :: back => if back = [] then name else back.reverse

/-- The last component of a path that names a file, trailing slashes and `.` aside. -/
def lastComponent? (path : List Char) : Option (List Char) :=
  let components := (Text.splitOn '/' path).filter fun c => c ≠ [] ∧ c ≠ ['.']
  match components.getLast? with
  | none => none
  | some last => if last = ['.', '.'] then none else some last

def caseName (path : String) : String :=
  match lastComponent? path.toList with
  | some name => String.ofList (stem name)
  | none => path

variable {m : Type → Type} [Monad m]

def loadSettings (host : Host m) (c : Common) : m (Except Failure Settings) := do
  let configHome ← host.environment? "XDG_CONFIG_HOME"
  let home ← host.environment? "HOME"
  match c.config.or (Config.defaultFile? configHome home) with
  | none => pure (.error (.ofMessage StorageFault.noDirectory.message))
  | some path =>
    match Config.load path (← host.read path) with
    | .error fault => pure (.error ⟨"loading " ++ path, storageCauses fault⟩)
    | .ok s => pure (.ok (override s c))

def readScript (host : Host m) (path : String) : m (Except Failure String) := do
  match ← host.read path with
  | .text script => pure (.ok script)
  | .missing => pure (.error ⟨"reading " ++ path, [missingReason]⟩)
  | .unreadable reason => pure (.error ⟨"reading " ++ path, [reason]⟩)

/-- The cases in files, numbered from `id`; the first file that cannot be read decides. -/
def readCases (host : Host m) (id : Nat) : List String → m (Except Failure (List Case))
  | [] => pure (.ok [])
  | path :: paths => do
    match ← readScript host path with
    | .error f => pure (.error f)
    | .ok script =>
      match ← readCases host (id + 1) paths with
      | .error f => pure (.error f)
      | .ok cases => pure (.ok (⟨id, caseName path, script⟩ :: cases))

/-! ### The commands -/

/-- The registry of the program: the built-in keywords, with the reflection library to import. -/
def registry (port : DevicePort m) : Registry m :=
  Registry.new.addLibrary (Reflection.library port)

/-- A port without a device, for scripts that are not run. -/
def noDevice : DevicePort m where
  attached := pure (.error (.noSession ""))
  call _ _ _ := pure (.error (.notConnected ""))

/-- What `check` prints about a case, and whether the case can be loaded. -/
def checkLine (c : Case) : String × Bool :=
  match Case.load (registry (noDevice (m := Id))) c with
  | (it, .ok ()) => ("ok    " ++ c.name ++ " (" ++ Digits.text it.lines.length ++ " lines)", true)
  | (_, .error fault) => ("error " ++ c.name ++ ": " ++ fault.message, false)

def check (host : Host m) (paths : List String) : m (Except Failure Unit) := do
  match ← readCases host 1 paths with
  | .error f => pure (.error f)
  | .ok cases =>
    let lines := cases.map checkLine
    for line in lines do
      host.printLine line.1
    let failed := lines.countP fun line => !line.2
    if failed = 0 then pure (.ok ())
    else
      pure (.error (.ofMessage (Digits.text failed ++ " of " ++ Digits.text paths.length ++
        " script(s) failed to parse")))

def statusText : Script.CaseOutcome → String
  | .notLoaded fault => "not loaded (line " ++ Script.LineNumber.text fault.line ++ ")"
  | .executed report =>
    if report.isSuccess then "passed"
    else Digits.text report.failures.length ++ " line(s) failed"

def summaryLine (r : Script.CaseResult) : String :=
  padLeft 4 (Digits.text r.id) ++ " " ++ padRight 24 r.name ++ " " ++ statusText r.outcome

def startServer (host : Host m) (s : Settings) : m (Except Failure (Listening m)) := do
  let address := s.server.socketAddress
  match ← host.listen address s.calls.callTimeout with
  | .ok server => pure (.ok server)
  | .error reason =>
    pure (.error ⟨"Failed to bind " ++ address ++ ": " ++ reason, [reason]⟩)

/-- Accepts devices until the user interrupts. -/
def serve (host : Host m) (s : Settings) : m (Except Failure Unit) := do
  match ← startServer host s with
  | .error f => pure (.error f)
  | .ok server =>
    host.interrupted
    server.shutdown
    pure (.ok ())

/-- Runs scripts against a device, one case per file. -/
def run (host : Host m) (s : Settings) (device : String) (paths : List String) :
    m (Except Failure Unit) := do
  match ← readCases host 1 paths with
  | .error f => pure (.error f)
  | .ok cases =>
    match ← startServer host s with
    | .error f => pure (.error f)
    | .ok server =>
      let wait := s.calls.registrationWait
      match ← server.awaitDevice device wait with
      | none =>
        server.shutdown
        pure (.error (.ofMessage
          ("device " ++ device ++ " did not register within " ++ wait.text)))
      | some port =>
        let report ← Script.runBatch (registry port) device
          (fun (e : Event) => host.printLine e.text) cases
        server.shutdown
        for result in report.cases do
          host.printLine (summaryLine result)
        host.printLine
          (Digits.text report.passed ++ " passed, " ++ Digits.text report.failed ++ " failed")
        if report.isSuccess then pure (.ok ())
        else pure (.error (.ofMessage (Digits.text report.failed ++ " case(s) failed")))

/-! ### The program -/

def versionText : String := "droidkw 0.1.0"

/-- The options that every command takes, as the help shows them. -/
def commonHelp : String :=
  "Options:\n" ++
  "      --config <CONFIG>    Config file (default: <config dir>/droidkw/config.json)\n" ++
  "      --port <PORT>        Listening port, overrides the config file\n" ++
  "      --timeout <TIMEOUT>  RPC call timeout in seconds, overrides the config file\n"

def helpText : Topic → String
  | .program =>
    "droidkw -- keyword-script runner for Android UI tests\n\n" ++
    "Usage: droidkw [OPTIONS] <COMMAND>\n\nCommands:\n" ++
    "  serve  Accept device connections and log registrations until Ctrl-C\n" ++
    "  check  Parse scripts without running them\n" ++
    "  run    Wait for a device and run scripts against it, one case per file\n" ++
    "  help   Print this message or the help of the given subcommand(s)\n\n" ++
    commonHelp ++ "  -h, --help               Print help\n" ++
    "  -V, --version            Print version"
  | .serve =>
    "Accept device connections and log registrations until Ctrl-C\n\n" ++
    "Usage: droidkw serve [OPTIONS]\n\n" ++ commonHelp ++
    "  -h, --help               Print help"
  | .check =>
    "Parse scripts without running them\n\n" ++
    "Usage: droidkw check [OPTIONS] <SCRIPTS>...\n\n" ++
    "Arguments:\n  <SCRIPTS>...  Script files\n\n" ++ commonHelp ++
    "  -h, --help               Print help"
  | .run =>
    "Wait for a device and run scripts against it, one case per file\n\n" ++
    "Usage: droidkw run [OPTIONS] --device <DEVICE> <SCRIPTS>...\n\n" ++
    "Arguments:\n  <SCRIPTS>...  Script files\n\n" ++ commonHelp ++
    "      --device <DEVICE>    Device id the agent registers with\n" ++
    "  -h, --help               Print help"
  | .help =>
    "Print this message or the help of the given subcommand(s)\n\n" ++
    "Usage: droidkw help [COMMAND]...\n\n" ++
    "Arguments:\n  [COMMAND]...  Print help for the subcommand(s)"

def execute (host : Host m) (o : Options) : m (Except Failure Unit) := do
  match ← loadSettings host o.common with
  | .error f => pure (.error f)
  | .ok s =>
    match o.command with
    | .serve => serve host s
    | .check scripts => check host scripts
    | .run device scripts => run host s device scripts

/-- Runs the program on its arguments. -/
def launch (host : Host m) (args : List String) : m Exit := do
  match Options.read args with
  | .error .version =>
    host.printLine versionText
    pure ⟨0, ""⟩
  | .error (.help topic) =>
    host.printLine (helpText topic)
    pure ⟨0, ""⟩
  | .error .usage => pure ⟨2, "error: invalid arguments\n\nFor more information, try '--help'.\n"⟩
  | .ok options => do
    let result ← execute host options
    pure (.ofResult result)

end KeywordRunner.CommandLine
