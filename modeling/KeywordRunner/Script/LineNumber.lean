import KeywordRunner.Numeral.Digits

/-!
# Script.LineNumber — numbers of lines

Lines are numbered by 64-bit words from one on, and the greatest word is followed by zero. Zero is
also the number of what belongs to no line.
-/

namespace KeywordRunner.Script

/-- The number of a line. -/
abbrev LineNumber := UInt64

namespace LineNumber

def text (number : LineNumber) : String := Digits.text number.toNat

end LineNumber

end KeywordRunner.Script
