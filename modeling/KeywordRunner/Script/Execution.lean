import KeywordRunner.Script.Event
import KeywordRunner.Script.Interpreter

/-!
# Script.Execution — running loaded scripts

Lines run in load order. A line that fails is reported and the next one runs: no fault, and no
breakdown of a keyword, ends a script. Keywords act in a monad `n`; the run itself acts in a monad
`m` above it, where a listener takes the events.
-/

namespace KeywordRunner.Script

/-- A line that failed, and what was reported. -/
structure LineFailure where
  line : LineNumber
  message : String
  deriving DecidableEq, Repr

structure Report where
  executed : Nat
  /-- The lines that failed, the latest first. -/
  failed : List LineFailure
  deriving DecidableEq, Repr

namespace Report

def empty : Report := ⟨0, []⟩

instance : Inhabited Report := ⟨empty⟩

def failures (r : Report) : List LineFailure := r.failed.reverse

def isSuccess (r : Report) : Bool := r.failed.isEmpty

/-- One more line, and its failure if it failed. -/
def count (r : Report) (failure : Option LineFailure) : Report :=
  ⟨r.executed + 1, failure.toList ++ r.failed⟩

end Report

namespace Interpreter

variable {n m : Type → Type}

/-- The keyword and argument words that a line calls with. Comments and imports call nothing when
they run. -/
def invocation? (line : Line) : Option (String × List String) :=
  match line.items with
  | [] => none
  | keyword :: args => if keyword = Keyword.importName then none else some (keyword, args)

/-- The variables after a line's result. -/
def bindOutput (vs : Variables) (output : Option String) (value : RemoteValue) : Variables :=
  match output with
  | none => vs
  | some name => vs.set name value

/-- Runs one line: resolves its arguments from left to right, finds its keyword, calls it, and
binds the result. The variables come back unchanged unless all of that went well. -/
def runLine [Monad n] (registry : Registry n) (vs : Variables) (line : Line) :
    n (Except KeywordFault Variables) :=
  match invocation? line with
  | none => pure (.ok vs)
  | some (keyword, words) =>
    match vs.resolveAll words with
    | .error fault => pure (.error fault)
    | .ok values =>
      match registry.get? keyword with
      | none => pure (.error (.notCallable keyword))
      | some call => do
        match ← call values with
        | .value v => pure (.ok (bindOutput vs line.output v))
        | .fault f => pure (.error f)
        | .panic p => pure (.error (.panicked keyword p.message))

/-- Runs lines in order, telling the listener about each. -/
def runLines [Monad n] [Monad m] [MonadLiftT n m] (listen : Event → m Unit)
    (registry : Registry n) (event : EventKind → Event) :
    List Line → Variables → Report → m (Variables × Report)
  | [], vs, report => pure (vs, report)
  | line :: lines, vs, report => do
    listen ((event .lineStart).atLine line.number)
    match ← (runLine registry vs line : n _) with
    | .ok vs' =>
      listen ((event .lineEnd).atLine line.number)
      runLines listen registry event lines vs' (report.count none)
    | .error fault =>
      let failure : LineFailure := ⟨line.number, fault.message⟩
      listen (((event .error).atLine line.number).withMessage failure.message)
      listen ((event .lineEnd).atLine line.number)
      runLines listen registry event lines vs (report.count (some failure))

/-- Runs every loaded line. Only the variables of the interpreter change. -/
def execute [Monad n] [Monad m] [MonadLiftT n m] (it : Interpreter n) (deviceId : String)
    (listen : Event → m Unit) : m (Interpreter n × Report) := do
  let event := fun kind => Event.plain kind deviceId it.caseId
  listen (event .caseStart)
  let (vars, report) ← runLines listen it.registry event it.lines it.vars .empty
  listen (event .caseEnd)
  pure ({ it with vars }, report)

end Interpreter

end KeywordRunner.Script
