import KeywordRunner.Numeral.Shortest

/-!
# Numeral.Layout — how a binary64 number is spelled

The digits of a number come from `Shortest`; a `Layout` decides how they are laid out. Two
layouts are in use: `Layout.json` for JSON texts and `Layout.plain` for everything a script or a
device reads.
-/

namespace KeywordRunner

/-- The choices left open once the shortest digits are known. -/
structure Layout where
  /-- Which of two equally near numerals is taken. -/
  tie : Shortest.Tie
  /-- Whether a number with this exponent of its leading digit is written without an exponent. -/
  positional : Int → Bool
  /-- Whether an integral number written positionally ends in `.0`. -/
  pointZero : Int → Bool

namespace Layout

/-- Positional for leading exponents from -5 to 15, scientific otherwise. -/
def json : Layout where
  tie := .even
  positional e := -5 ≤ e && e ≤ 15
  pointZero _ := true

/-- Always positional; integral numbers below `10 ^ 16` keep a fractional part. -/
def plain : Layout where
  tie := .up
  positional _ := true
  pointZero e := e ≤ 15

/-- Digits without an exponent, the point placed after the digit of the units. -/
def positionalText (pointZero : Bool) (ds : List Char) (leading : Int) : List Char :=
  if leading < 0 then
    '0' :: '.' :: (List.replicate ((-leading).toNat - 1) '0' ++ ds)
  else
    let whole := leading.toNat + 1
    if ds.length ≤ whole then
      ds ++ List.replicate (whole - ds.length) '0' ++ (if pointZero then ['.', '0'] else [])
    else ds.take whole ++ '.' :: ds.drop whole

/-- Digits with the point after the first one, and a signed exponent. -/
def scientificText (ds : List Char) (leading : Int) : List Char :=
  let mantissa :=
    match ds with
    | [] => []
    | [d] => [d]
    | d :: rest => d :: '.' :: rest
  let sign := if leading < 0 then '-' else '+'
  mantissa ++ 'e' :: sign :: Digits.write leading.natAbs

/-- The text of a decimal without its sign. -/
def decimalText (l : Layout) (d : Shortest.Decimal) : List Char :=
  let ds := Digits.write d.coefficient
  if l.positional d.leading then positionalText (l.pointZero d.leading) ds d.leading
  else scientificText ds d.leading

def finiteText (l : Layout) (x : Binary64) : List Char :=
  let d : Shortest.Decimal := if x.isZero then ⟨0, 0⟩ else Shortest.decimal l.tie x
  if x.isNegative then '-' :: l.decimalText d else l.decimalText d

def text (l : Layout) (x : Binary64) : List Char :=
  if x.isFinite then l.finiteText x
  else if x.isNaN then ['N', 'a', 'N']
  else if x.isNegative then ['-', 'i', 'n', 'f']
  else ['i', 'n', 'f']

end Layout

/-- The decimal text of a number, as scripts and devices see it: `1.0`, never `1`. -/
def Binary64.text (x : Binary64) : String := String.ofList (Layout.plain.text x)

end KeywordRunner
