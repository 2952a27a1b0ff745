import KeywordRunner.Numeral.Nearest

/-!
# Numeral.Literal — reading a binary64 number from text

The accepted texts: an optional sign, then either `inf`, `infinity` or `nan` in any case, or
digits with at most one point (digits on at least one side of it) and an optional exponent. No
blanks, no other radix, no digit separators. A value out of range becomes an infinity or a zero.
-/

namespace KeywordRunner.Literal

/-- An unsigned decimal: the digits as one number, and the power of ten they count. -/
structure Decimal where
  digits : Nat
  exponent : Int
  deriving DecidableEq, Repr

/-- An optional sign, and whether it is a minus. -/
def splitSign : List Char → Bool × List Char
  | '-' :: cs => (true, cs)
  | '+' :: cs => (false, cs)
  | cs => (false, cs)

/-- The exponent that ends a numeral: nothing, or `e` with an optionally signed numeral. -/
def readExponent? : List Char → Option Int
  | [] => some 0
  | e :: cs =>
    if e = 'e' ∨ e = 'E' then
      let (negative, ds) := splitSign cs
      if ds ≠ [] ∧ ds.all Char.isDigit then
        some (if negative then -(Digits.value ds : Int) else Digits.value ds)
      else none
    else none

/-- The fraction digits after a point, if there is one, and what follows. -/
def splitFraction : List Char → List Char × List Char
  | '.' :: cs => Digits.span cs
  | cs => ([], cs)

/-- An unsigned decimal numeral. -/
def readDecimal? (cs : List Char) : Option Decimal :=
  let (whole, afterWhole) := Digits.span cs
  let (fraction, afterFraction) := splitFraction afterWhole
  if whole = [] ∧ fraction = [] then none
  else (readExponent? afterFraction).map fun e =>
    { digits := Digits.value (whole ++ fraction), exponent := e - fraction.length }

def lower (cs : List Char) : List Char := cs.map Char.toLower

def read? (cs : List Char) : Option Binary64 :=
  let (negative, body) := splitSign cs
  let word := String.ofList (lower body)
  if word = "inf" ∨ word = "infinity" then some (Binary64.infinity negative)
  else if word = "nan" then some (Binary64.nan negative)
  else (readDecimal? body).map fun d => Nearest.ofDecimal negative d.digits d.exponent

end KeywordRunner.Literal
