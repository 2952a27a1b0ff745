import KeywordRunner.Text.Blank
import KeywordRunner.Wire.Escape
import KeywordRunner.Wire.Message

/-!
# Wire.Frame — one message, one line

A frame is the compact JSON text of a message, escaped to one line and ended by a newline.
-/

namespace KeywordRunner.Wire

/-- Why no message came out of a line or a stream. -/
inductive FrameFault where
  | json (fault : JsonFault CodeFault)
  /-- More bytes than any frame has, and no end of line among them. -/
  | tooLarge (size : Nat)
  deriving DecidableEq, Repr

/-- The wording of a fault, where this library decides it; a text that is no JSON is reported in
other words by every reader. -/
def FrameFault.message? : FrameFault → Option String
  | .json (.rejected cause) => some cause.message
  | .json _ => none
  | .tooLarge n => some ("Frame too large: " ++ Digits.text n ++ " bytes without delimiter")

def encodeFrame (m : Message) : String := escape m.toJson.compact ++ "\n"

/-- A line without the newlines and carriage returns at its end. -/
def dropLineEnd (line : String) : String :=
  String.ofList (Text.dropEnd (fun c => c == '\n' || c == '\r') line.toList)

/-- The message of a line, with or without its line ending. -/
def decodeFrame (line : String) : Except FrameFault Message :=
  (Message.parse (unescape (dropLineEnd line))).mapError .json

end KeywordRunner.Wire
