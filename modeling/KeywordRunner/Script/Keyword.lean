import KeywordRunner.Script.Fault

/-!
# Script.Keyword — what a script can call

A keyword takes the values of its arguments and acts in some monad `n`: a state of shared
variables and a device for a pure run, the real world for the command line. However it ends, it
ends in an `Outcome`; a keyword that breaks down does not take the script with it.
-/

namespace KeywordRunner.Script

/-- What a keyword that broke down left behind. -/
inductive Panic where
  | text (message : String)
  /-- Something that is no text. -/
  | other
  deriving DecidableEq, Repr

def Panic.message : Panic → String
  | .text message => message
  | .other => "unknown panic"

inductive Outcome where
  | value (v : RemoteValue)
  | fault (f : KeywordFault)
  | panic (p : Panic)

namespace Outcome

def ofExcept : Except KeywordFault RemoteValue → Outcome
  | .ok v => .value v
  | .error f => .fault f

end Outcome

abbrev Keyword (n : Type → Type) := List RemoteValue → n Outcome

/-- Keywords that become callable together. -/
structure Library (n : Type → Type) where
  name : String
  keywords : List (String × Keyword n)

namespace Keyword

variable {n : Type → Type} [Pure n]

/-- A keyword that only computes. -/
def ofFunction (f : List RemoteValue → Except KeywordFault RemoteValue) : Keyword n :=
  fun args => pure (.ofExcept (f args))

/-! ### Numbers of arguments -/

def checkExact (keyword : String) (expected : Nat) (got : Nat) : Except KeywordFault Unit :=
  if got = expected then .ok () else .error (.arity keyword (Digits.text expected) got)

def checkMin (keyword : String) (least : Nat) (got : Nat) : Except KeywordFault Unit :=
  if least ≤ got then .ok ()
  else .error (.arity keyword ("at least " ++ Digits.text least) got)

/-! ### The built-in keywords -/

/-- The keyword that loads a library; all its work is done when its line is loaded. -/
def importName : String := "import"

def checkName : String := "check"

def importKeyword : Keyword n := ofFunction fun _ => .ok .null

/-- Two values that are equal or have the same text pass, so that the word `5` matches the
integer. -/
def check (args : List RemoteValue) : Except KeywordFault RemoteValue := do
  checkExact checkName 2 args.length
  match args with
  | [expected, actual] =>
    if expected.same actual || expected.text == actual.text then pure (.bool true)
    else .error (.checkFailed expected.text actual.text)
  | _ => .error (.arity checkName (Digits.text 2) args.length)

def checkKeyword : Keyword n := ofFunction check

/-- The keywords that are always there. -/
def builtins : List (String × Keyword n) :=
  [(importName, importKeyword), (checkName, checkKeyword)]

end Keyword

end KeywordRunner.Script
