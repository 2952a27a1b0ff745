/-!
# Script.Token — what one word of a script line refers to

A word that starts with `$` and goes on names a variable, or an attribute of a variable after the
first point. Every other word, a lone `$` included, stands for itself.
-/

namespace KeywordRunner.Script

/-- The meaning of a word as an argument. -/
inductive Token where
  | literal (text : String)
  | variable (name : String) (attr : Option String)
  deriving DecidableEq, Repr

namespace Token

/-- The text before the first point and, if there is a point, the text after it. -/
def splitAttr (cs : List Char) : List Char × Option (List Char) :=
  match cs.dropWhile (· != '.') with
  | [] => (cs, none)
  | _ :: attr => (cs.takeWhile (· != '.'), some attr)

def classify (word : String) : Token :=
  match word.toList with
  | '$' :: c :: cs =>
    let (name, attr) := splitAttr (c :: cs)
    .variable (String.ofList name) (attr.map String.ofList)
  | _ => .literal word

def variableName? (word : String) : Option String :=
  match classify word with
  | .variable name _ => some name
  | .literal _ => none

end Token

end KeywordRunner.Script
