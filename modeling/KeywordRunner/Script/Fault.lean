import KeywordRunner.Script.LineNumber
import KeywordRunner.Session.Fault

/-!
# Script.Fault — what can be wrong with a script

`LoadFault` is why a line cannot be loaded, `KeywordFault` why a loaded line fails when it runs.
Each cause has one wording, in `message`.
-/

namespace KeywordRunner.Script

inductive BindingFault where
  | noKeyword
  | noName
  | severalNames
  | badName
  deriving DecidableEq, Repr

def BindingFault.message : BindingFault → String
  | .noKeyword => "missing keyword before \"as\""
  | .noName => "missing variable name after \"as\""
  | .severalNames => "only one variable may follow \"as\""
  | .badName => "variable name must be a bare identifier"

inductive LoadCause where
  | unterminatedQuote
  | malformedBinding (reason : BindingFault)
  | undefinedVariable (name : String)
  | unknownKeyword (name : String)
  | unknownLibrary (name : String)
  /-- An import with some other number of arguments than one. -/
  | malformedImport (got : Nat)
  deriving DecidableEq, Repr

/-- A line that cannot be loaded, and why. -/
structure LoadFault where
  line : LineNumber
  cause : LoadCause
  deriving DecidableEq, Repr

def LoadCause.message : LoadCause → String
  | .unterminatedQuote => "missing closing quote"
  | .malformedBinding reason => "malformed \"as\" binding: " ++ reason.message
  | .undefinedVariable name => "variable $" ++ name ++ " is not defined"
  | .unknownKeyword name => "keyword " ++ Text.quoted name ++ " is not defined"
  | .unknownLibrary name => "no keyword library named " ++ Text.quoted name
  | .malformedImport got => "import expects exactly one library name, got " ++ Digits.text got

def LoadFault.message (f : LoadFault) : String :=
  "line " ++ LineNumber.text f.line ++ ": " ++ f.cause.message

inductive KeywordFault where
  | checkFailed (expected : String) (actual : String)
  | arity (keyword : String) (expected : String) (got : Nat)
  | invalidArgument (keyword : String) (message : String)
  | undefinedVariable (name : String)
  | missingAttribute (name : String) (attr : String) (kind : String)
  | notCallable (name : String)
  | noSession (deviceId : String)
  | call (fault : CallFault)
  | argument (fault : ArgumentFault)
  | panicked (keyword : String) (message : String)
  | failed (message : String)

def KeywordFault.message : KeywordFault → String
  | .checkFailed expected actual =>
    "check failed: expected " ++ Text.quoted expected ++ ", got " ++ Text.quoted actual
  | .arity keyword expected got =>
    keyword ++ " expects " ++ expected ++ " argument(s), got " ++ Digits.text got
  | .invalidArgument keyword message => keyword ++ ": " ++ message
  | .undefinedVariable name => "variable $" ++ name ++ " is not defined"
  | .missingAttribute name attr kind =>
    "$" ++ name ++ " (" ++ kind ++ ") has no attribute " ++ Text.quoted attr
  | .notCallable name => name ++ " is not a callable keyword"
  | .noSession id => "no device session attached to device " ++ id
  | .call fault => fault.message
  | .argument fault => fault.message
  | .panicked keyword message => "keyword " ++ keyword ++ " panicked: " ++ message
  | .failed message => message

end KeywordRunner.Script
