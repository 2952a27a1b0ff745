import KeywordRunner.Numeral.Digits

/-!
# Time.Duration — spans of time

Spans are whole milliseconds, as many as one likes, and an instant that lies a span ahead is taken
to exist. Their text uses seconds from one second on, milliseconds below that, and writes a fraction
without trailing zeros: `61.5s`, `7ms`, and `0ns` for no time.
-/

namespace KeywordRunner

/-- A span of time in whole milliseconds. -/
structure Duration where
  millis : Nat
  deriving DecidableEq, Inhabited, Repr

namespace Duration

def ofMillis (n : Nat) : Duration := ⟨n⟩

def ofSeconds (n : Nat) : Duration := ⟨n * 1000⟩

/-- The digits of thousandths after the point, without trailing zeros. -/
def thousandths (n : Nat) : List Char :=
  let padded := List.replicate (3 - Digits.count n) '0' ++ Digits.write n
  (padded.reverse.dropWhile (· == '0')).reverse

def text (d : Duration) : String :=
  let seconds := d.millis / 1000
  let rest := d.millis % 1000
  if d.millis = 0 then "0ns"
  else if seconds = 0 then Digits.text rest ++ "ms"
  else if rest = 0 then Digits.text seconds ++ "s"
  else String.ofList (Digits.write seconds ++ '.' :: thousandths rest) ++ "s"

end Duration

end KeywordRunner
