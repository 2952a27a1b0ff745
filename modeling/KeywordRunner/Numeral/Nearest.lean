import KeywordRunner.Numeral.Binary64
import KeywordRunner.Numeral.Digits

/-!
# Numeral.Nearest — rounding to binary64

The binary64 number nearest to a ratio of natural numbers, ties to the even significand,
computed in exact integer arithmetic. Decimal numerals and integers are ratios, so both are
rounded once and correctly; what lies beyond the largest finite number becomes an infinity.
-/

namespace KeywordRunner.Nearest

/-- `num / den` to the nearest integer, a half to the even neighbour. -/
def divide (num den : Nat) : Nat :=
  let q := num / den
  let r := num % den
  if 2 * r < den then q
  else if den < 2 * r then q + 1
  else if q % 2 = 0 then q else q + 1

/-- `num / den` counted in units of `2 ^ e`, as a ratio of naturals. -/
def scale (num den : Nat) (e : Int) : Nat × Nat :=
  if 0 ≤ e then (num, den <<< e.toNat) else (num <<< (-e).toNat, den)

/--
The exponent of the last significand bit of `num / den`. With `log₂` of both sides taken to the
floor, the quotient counted in units of `2 ^ (l - 53)` lies between `2 ^ 52` and `2 ^ 54`, so one
test settles which of two units leaves 53 bits; below the normal range the unit is `2 ^ (-1074)`.
-/
def unitExponent (num den : Nat) : Int :=
  let l : Int := (num.log2 : Int) - (den.log2 : Int)
  let e := max (l - 53) (-1074)
  let (a, b) := scale num den e
  if a / b < 0x20000000000000 then e else e + 1

/--
The nearest number to `num / den` with the given sign. A rounded significand `m` in units of
`2 ^ e` has the word `(e + 1074) * 2 ^ 52 + m`, for subnormal numbers, normal numbers and a carry
into the next power of two alike.
-/
def ofRatio (negative : Bool) (num den : Nat) : Binary64 :=
  if num = 0 then Binary64.zero negative
  else
    let e := unitExponent num den
    let (a, b) := scale num den e
    let magnitude := ((e + 1074).toNat <<< 52) + divide a b
    if magnitude < Binary64.infinityMagnitude then Binary64.ofParts negative magnitude
    else Binary64.infinity negative

/--
The nearest number to `digits * 10 ^ exponent`. Digits other than zero are at least `1` and below
`10 ^ (log₂ digits + 1)`, so an exponent beyond 400 places on either side of that makes an infinity
or a zero whatever the digits are, and no power of such an exponent is formed.
-/
def ofDecimal (negative : Bool) (digits : Nat) (exponent : Int) : Binary64 :=
  if digits = 0 then Binary64.zero negative
  else if 400 < exponent then Binary64.infinity negative
  else if exponent + digits.log2 < -400 then Binary64.zero negative
  else if 0 ≤ exponent then ofRatio negative (digits * Nat.pow 10 exponent.toNat) 1
  else ofRatio negative digits (Nat.pow 10 (-exponent).toNat)

def ofInt (i : Int) : Binary64 := ofRatio (decide (i < 0)) i.natAbs 1

end KeywordRunner.Nearest
