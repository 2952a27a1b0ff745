import KeywordRunner.Script.Line
import KeywordRunner.Script.Registry
import KeywordRunner.Script.Variables
import KeywordRunner.Text.Lines

/-!
# Script.Interpreter — loading scripts

An interpreter holds a registry, the variables and the lines loaded so far. Loading reads the
lines of a text one by one, resolves every name, carries out imports and declares the variables
that lines bind; line numbers go on from what was loaded before. A text with a line that cannot be
loaded leaves no trace at all.
-/

namespace KeywordRunner.Script

/-- A script being loaded or run. -/
structure Interpreter (n : Type → Type) where
  registry : Registry n
  vars : Variables
  /-- The loaded lines, the latest first. -/
  loaded : List Line
  /-- The greatest line number met so far, blank lines included. -/
  lineCount : LineNumber
  caseId : Nat

namespace Interpreter

variable {n : Type → Type}

/-- An interpreter without any lines. -/
def withRegistry (registry : Registry n) : Interpreter n := ⟨registry, ∅, [], 0, 0⟩

instance [Pure n] : Inhabited (Interpreter n) := ⟨withRegistry .new⟩

/-- The loaded lines in order. -/
def lines (it : Interpreter n) : List Line := it.loaded.reverse

def setCaseId (it : Interpreter n) (caseId : Nat) : Interpreter n := { it with caseId }

/-- The first variable that a line reads and nothing declares. -/
def undeclared? (it : Interpreter n) (line : Line) : Option String :=
  line.references.find? fun name => !it.vars.isDeclared name

/-- The registry after a line's import, when its keyword is that; for any other keyword the
registry as it is, provided the name can be called or is a variable. -/
def resolveKeyword (it : Interpreter n) (line : Line) : Except LoadCause (Registry n) :=
  let keyword := line.keyword.getD ""
  if keyword = Keyword.importName then
    match line.args with
    | [library] =>
      match it.registry.importLibrary library with
      | some (registry, _) => .ok registry
      | none => .error (.unknownLibrary library)
    | args => .error (.malformedImport args.length)
  else if it.registry.contains keyword || it.vars.isDeclared keyword then .ok it.registry
  else .error (.unknownKeyword keyword)

/-- Declares the variable that a line binds. -/
def declareOutput (vs : Variables) : Option String → Variables
  | none => vs
  | some name => vs.declare name

/-- One more line. -/
def addLine (it : Interpreter n) (line : Line) : Interpreter n :=
  { it with loaded := line :: it.loaded }

@[simp] theorem lines_addLine (it : Interpreter n) (line : Line) :
    (it.addLine line).lines = it.lines ++ [line] := by
  simp [lines, addLine]

/-- Adds a line that has been read: its names resolve, its import is carried out, its variable is
declared. -/
def accept (it : Interpreter n) (line : Line) : Except LoadCause (Interpreter n) :=
  if line.isComment then .ok (it.addLine line)
  else
    match it.undeclared? line with
    | some name => .error (.undefinedVariable name)
    | none =>
      match it.resolveKeyword line with
      | .error cause => .error cause
      | .ok registry =>
        let vars := declareOutput it.vars line.output
        .ok { it.addLine line with registry, vars }

/-- Loads one line under a given number. A blank line only uses up its number; a line that cannot
be loaded does as much. -/
def loadLine (it : Interpreter n) (text : String) (number : LineNumber) :
    Interpreter n × Except LoadFault (Option Line) :=
  let counted := { it with lineCount := max it.lineCount number }
  let raw := Text.dropReturns text
  if Text.isBlankText raw then (counted, .ok none)
  else
    match Line.read raw number with
    | .error fault => (counted, .error fault)
    | .ok line =>
      match counted.accept line with
      | .error cause => (counted, .error ⟨number, cause⟩)
      | .ok loaded => (loaded, .ok (some line))

/-- Loads lines under consecutive numbers, up to the first that cannot be loaded. What was loaded
before that one stays. -/
def loadLines (it : Interpreter n) : List String → Interpreter n × Except LoadFault Unit
  | [] => (it, .ok ())
  | text :: texts =>
    match it.loadLine text (it.lineCount + 1) with
    | (it, .error fault) => (it, .error fault)
    | (it, .ok _) => it.loadLines texts

@[simp] theorem loadLines_nil (it : Interpreter n) : it.loadLines [] = (it, .ok ()) := rfl

theorem loadLines_cons (it : Interpreter n) (text : String) (texts : List String) :
    it.loadLines (text :: texts)
      = match it.loadLine text (it.lineCount + 1) with
        | (it, .error fault) => (it, .error fault)
        | (it, .ok _) => it.loadLines texts := rfl

/-- Takes back what was loaded since an earlier state: the lines added since are dropped, and
numbering, variables and registry are those of that state again. -/
def rollBack (it earlier : Interpreter n) : Interpreter n :=
  { it with
    loaded := it.loaded.drop (it.loaded.length - earlier.loaded.length)
    lineCount := earlier.lineCount
    vars := earlier.vars
    registry := earlier.registry }

/-- Loads a text, all of it or nothing. -/
def load (it : Interpreter n) (text : String) : Interpreter n × Except LoadFault Unit :=
  match it.loadLines (Text.lines text) with
  | (loaded, .ok ()) => (loaded, .ok ())
  | (loaded, .error fault) => (loaded.rollBack it, .error fault)

def register (it : Interpreter n) (name : String) (keyword : Keyword n) : Interpreter n :=
  { it with registry := it.registry.register name keyword }

def addLibrary (it : Interpreter n) (library : Library n) : Interpreter n :=
  { it with registry := it.registry.addLibrary library }

/-- Forgets lines, numbering, variables and every keyword that is not built in. -/
def reset [Pure n] (it : Interpreter n) : Interpreter n :=
  { it with registry := it.registry.reset, vars := ∅, loaded := [], lineCount := 0 }

/-- The interpreter for a developer's eye. -/
def debugText (it : Interpreter n) : String :=
  "Interpreter \x7b registry: " ++ it.registry.debugText ++
    ", lines: " ++ Digits.text it.lines.length ++
    ", variables: " ++ Digits.text it.vars.size ++
    ", case_id: " ++ Digits.text it.caseId ++ " \x7d"

end Interpreter

end KeywordRunner.Script
