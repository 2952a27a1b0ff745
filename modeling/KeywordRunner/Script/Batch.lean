import KeywordRunner.Script.Execution

/-!
# Script.Batch — running many scripts

A batch runs its cases one after the other, each in a fresh interpreter over the same registry, so
that imports and variables end with their case. A case that cannot be loaded is reported and the
batch goes on.
-/

namespace KeywordRunner.Script

structure Case where
  id : Nat
  name : String
  script : String
  deriving DecidableEq, Repr

inductive CaseOutcome where
  /-- It could not be loaded; nothing ran. -/
  | notLoaded (fault : LoadFault)
  | executed (report : Report)
  deriving DecidableEq, Repr

structure CaseResult where
  id : Nat
  name : String
  outcome : CaseOutcome
  deriving DecidableEq, Repr

def CaseResult.passed (r : CaseResult) : Bool :=
  match r.outcome with
  | .notLoaded _ => false
  | .executed report => report.isSuccess

/-- What became of a batch, case by case. -/
structure BatchReport where
  cases : List CaseResult
  deriving DecidableEq, Repr

namespace BatchReport

def passed (r : BatchReport) : Nat := r.cases.countP (·.passed)

def failed (r : BatchReport) : Nat := r.cases.length - r.passed

def isSuccess (r : BatchReport) : Bool := r.failed == 0

end BatchReport

namespace Case

variable {n m : Type → Type}

/-- Loads a case into a fresh interpreter. -/
def load (registry : Registry n) (c : Case) : Interpreter n × Except LoadFault Unit :=
  ((Interpreter.withRegistry registry).setCaseId c.id).load c.script

def run [Monad n] [Monad m] [MonadLiftT n m] (registry : Registry n) (deviceId : String)
    (listen : Event → m Unit) (c : Case) : m CaseOutcome := do
  match c.load registry with
  | (it, .ok ()) =>
    let (_, report) ← it.execute deviceId listen
    pure (.executed report)
  | (_, .error fault) =>
    listen (.plain .caseStart deviceId c.id)
    listen (((Event.plain .error deviceId c.id).atLine fault.line).withMessage fault.message)
    listen (.plain .caseEnd deviceId c.id)
    pure (.notLoaded fault)

end Case

/-- Runs cases in order, with what came of each. -/
def runCases {n m : Type → Type} [Monad n] [Monad m] [MonadLiftT n m] (registry : Registry n)
    (deviceId : String) (listen : Event → m Unit) : List Case → m (List CaseResult)
  | [] => pure []
  | c :: cs => do
    let outcome ← c.run registry deviceId listen
    let results ← runCases registry deviceId listen cs
    pure (⟨c.id, c.name, outcome⟩ :: results)

def runBatch {n m : Type → Type} [Monad n] [Monad m] [MonadLiftT n m] (registry : Registry n)
    (deviceId : String) (listen : Event → m Unit) (cases : List Case) : m BatchReport := do
  listen (.plain .testStart deviceId 0)
  let results ← runCases registry deviceId listen cases
  listen (.plain .testEnd deviceId 0)
  pure ⟨results⟩

end KeywordRunner.Script
