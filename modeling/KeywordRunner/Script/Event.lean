import KeywordRunner.Script.LineNumber

/-!
# Script.Event — progress reports

What a listener is told while scripts run: the start and end of a batch, of each case and of each
line, and every failure.
-/

namespace KeywordRunner.Script

inductive EventKind where
  | testStart
  | testEnd
  | caseStart
  | caseEnd
  | lineStart
  | lineEnd
  | error
  deriving DecidableEq, Repr

namespace EventKind

def code : EventKind → Nat
  | .testStart => 1
  | .testEnd => 2
  | .caseStart => 101
  | .caseEnd => 102
  | .lineStart => 201
  | .lineEnd => 202
  | .error => 500

def label : EventKind → String
  | .testStart => "TEST_START"
  | .testEnd => "TEST_END"
  | .caseStart => "CASE_START"
  | .caseEnd => "CASE_END"
  | .lineStart => "KW_LINE_START"
  | .lineEnd => "KW_LINE_END"
  | .error => "ERROR"

end EventKind

structure Event where
  kind : EventKind
  deviceId : String
  caseId : Nat
  /-- Zero for events that belong to no line. -/
  line : LineNumber
  message : Option String
  deriving DecidableEq, Repr

namespace Event

/-- An event that belongs to no line. -/
def plain (kind : EventKind) (deviceId : String) (caseId : Nat) : Event :=
  ⟨kind, deviceId, caseId, 0, none⟩

def atLine (e : Event) (line : LineNumber) : Event := { e with line }

def withMessage (e : Event) (message : String) : Event := { e with message := some message }

def isError (e : Event) : Bool := e.kind == .error

def text (e : Event) : String :=
  e.kind.label ++ " case_id=" ++ Digits.text e.caseId ++ " line_number=" ++
    LineNumber.text e.line ++ " message: " ++ e.message.getD ""

end Event

end KeywordRunner.Script
