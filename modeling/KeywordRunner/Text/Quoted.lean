import KeywordRunner.Text.Extending
import KeywordRunner.Text.Hex
import KeywordRunner.Text.Printable

/-!
# Text.Quoted — quoted texts for messages

A text between double quotes, with an escape for every character that would be invisible,
ambiguous or would join the character before it: messages show exactly which characters a text
holds.
-/

namespace KeywordRunner.Text

/-- The spelling of one character inside a quoted text. -/
def quotedChar (c : Char) : List Char :=
  if c = '\x00' then ['\\', '0']
  else if c = '\t' then ['\\', 't']
  else if c = '\r' then ['\\', 'r']
  else if c = '\n' then ['\\', 'n']
  else if c = '"' then ['\\', '"']
  else if c = '\\' then ['\\', '\\']
  else if isExtending c || !isPrintable c then
    '\\' :: 'u' :: '\x7b' :: (hex c.toNat ++ ['\x7d'])
  else [c]

def quoted (s : String) : String :=
  String.ofList ('"' :: (s.toList.flatMap quotedChar ++ ['"']))

/-- Quoted texts in brackets, separated by commas. -/
def quotedList (ss : List String) : String :=
  "[" ++ String.intercalate ", " (ss.map quoted) ++ "]"

end KeywordRunner.Text
