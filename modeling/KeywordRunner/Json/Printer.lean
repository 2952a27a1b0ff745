import KeywordRunner.Json.Value
import KeywordRunner.Numeral.Layout
import KeywordRunner.Numeral.Signed
import KeywordRunner.Text.Quoted

/-!
# Json.Printer — JSON texts

Two printers over the same spelling of scalars: `Json.compact` writes no blanks at all,
`Json.pretty` puts every item and member on its own line, two spaces deeper than its container.
Members are written in the order of the value.
-/

namespace KeywordRunner.Json

/-- The spelling of one character inside a JSON string. -/
def escapedChar (c : Char) : List Char :=
  if c = '"' then ['\\', '"']
  else if c = '\\' then ['\\', '\\']
  else if c = '\x08' then ['\\', 'b']
  else if c = '\x0c' then ['\\', 'f']
  else if c = '\n' then ['\\', 'n']
  else if c = '\r' then ['\\', 'r']
  else if c = '\t' then ['\\', 't']
  else if c.toNat < 0x20 then
    ['\\', 'u', '0', '0', Text.hexDigit (c.toNat / 16), Text.hexDigit (c.toNat % 16)]
  else [c]

def writeString (s : String) : List Char := '"' :: (s.toList.flatMap escapedChar ++ ['"'])

def writeNumber : JsonNumber → List Char
  | .int i => Signed.write i.val
  | .real x _ => Layout.json.finiteText x

mutual

/-- The value without blanks. -/
def write : Json → List Char
  | .null => ['n', 'u', 'l', 'l']
  | .bool true => ['t', 'r', 'u', 'e']
  | .bool false => ['f', 'a', 'l', 's', 'e']
  | .num n => writeNumber n
  | .str s => writeString s
  | .arr [] => ['[', ']']
  | .arr (j :: js) => '[' :: (write j ++ (writeItems js ++ [']']))
  | .obj [] => ['\x7b', '\x7d']
  | .obj ((k, j) :: ms) =>
    '\x7b' :: (writeString k ++ (':' :: (write j ++ (writeMembers ms ++ ['\x7d']))))

/-- Further items, each after a comma. -/
def writeItems : List Json → List Char
  | [] => []
  | j :: js => ',' :: (write j ++ writeItems js)

/-- Further members, each after a comma. -/
def writeMembers : List (String × Json) → List Char
  | [] => []
  | (k, j) :: ms => ',' :: (writeString k ++ (':' :: (write j ++ writeMembers ms)))

end

def compact (j : Json) : String := String.ofList (write j)

/-- A line break and the indentation of a nesting level. -/
def newline (level : Nat) : List Char := '\n' :: List.replicate (2 * level) ' '

mutual

/-- The value over several lines, inside `level` containers. -/
def writePretty (level : Nat) : Json → List Char
  | .null => ['n', 'u', 'l', 'l']
  | .bool true => ['t', 'r', 'u', 'e']
  | .bool false => ['f', 'a', 'l', 's', 'e']
  | .num n => writeNumber n
  | .str s => writeString s
  | .arr [] => ['[', ']']
  | .arr (j :: js) =>
    '[' :: (newline (level + 1) ++ (writePretty (level + 1) j ++
      (writePrettyItems (level + 1) js ++ (newline level ++ [']']))))
  | .obj [] => ['\x7b', '\x7d']
  | .obj ((k, j) :: ms) =>
    '\x7b' :: (newline (level + 1) ++ (writeString k ++ (':' :: ' ' ::
      (writePretty (level + 1) j ++
        (writePrettyMembers (level + 1) ms ++ (newline level ++ ['\x7d']))))))

/-- Further items, each after a comma and on its own line. -/
def writePrettyItems (level : Nat) : List Json → List Char
  | [] => []
  | j :: js => ',' :: (newline level ++ (writePretty level j ++ writePrettyItems level js))

/-- Further members, each after a comma and on its own line. -/
def writePrettyMembers (level : Nat) : List (String × Json) → List Char
  | [] => []
  | (k, j) :: ms =>
    ',' :: (newline level ++ (writeString k ++ (':' :: ' ' ::
      (writePretty level j ++ writePrettyMembers level ms))))

end

/-- The text of a value over several lines. -/
def pretty (j : Json) : String := String.ofList (writePretty 0 j)

end KeywordRunner.Json
