import KeywordRunner.Numeral.Binary64
import KeywordRunner.Numeral.Digits

/-!
# Numeral.Shortest — the fewest digits that read back

The shortest decimal numeral within the interval of reals that round to a given binary64 number,
and of two such numerals the nearer one. Everything is exact: the number, its interval and a
decimal candidate are compared as integers over a common scale.
-/

namespace KeywordRunner.Shortest

/-- Which of two equally near numerals is taken. -/
inductive Tie where
  | even
  | up
  deriving DecidableEq, Repr

/-- The decimal `coefficient * 10 ^ exponent`. -/
structure Decimal where
  coefficient : Nat
  exponent : Int
  deriving DecidableEq, Repr

namespace Decimal

/-- The same value without trailing zeros in the coefficient. -/
def normalize (d : Decimal) : Decimal :=
  let ds := (Digits.write d.coefficient).reverse
  let zeros := (ds.takeWhile (· == '0')).length
  if d.coefficient = 0 then ⟨0, 0⟩
  else ⟨d.coefficient / Nat.pow 10 zeros, d.exponent + zeros⟩

/-- The exponent of the leading digit: the value is `d.ddd * 10 ^ leading`. -/
def leading (d : Decimal) : Int := d.exponent + Digits.count d.coefficient - 1

end Decimal

/--
The interval of reals that round to a positive number, in quarters of its last unit: the number
is `middle`, the ends are `low` and `high`, all times `2 ^ exponent`. At a power of two the unit
below is half as wide. The ends belong to it iff the significand is even.
-/
structure Interval where
  low : Nat
  middle : Nat
  high : Nat
  exponent : Int
  closed : Bool

/-- The interval of a finite number other than zero. -/
def interval (x : Binary64) : Interval :=
  let m := x.significand
  let narrow := x.fraction = 0 ∧ 1 < x.biased
  { low := if narrow then 4 * m - 1 else 4 * m - 2
    middle := 4 * m
    high := 4 * m + 2
    exponent := x.exponent - 2
    closed := m % 2 == 0 }

/-- `a * 2 ^ e` and `c * 10 ^ k` as naturals over a common scale. -/
def commonScale (a : Nat) (e : Int) (c : Nat) (k : Int) : Nat × Nat :=
  ((a * Nat.pow 10 (-k).toNat) <<< e.toNat, (c * Nat.pow 10 k.toNat) <<< (-e).toNat)

/-- Whether `c * 10 ^ k` rounds to the number of the interval. -/
def Interval.holds (i : Interval) (c : Nat) (k : Int) : Bool :=
  let (low, here) := commonScale i.low i.exponent c k
  let (high, _) := commonScale i.high i.exponent c k
  if i.closed then low ≤ here && here ≤ high else low < here && here < high

/-- The exponent of the leading decimal digit of `a * 2 ^ e`, for `a` positive. -/
def leadingExponent (a : Nat) (e : Int) : Int :=
  let num := a <<< e.toNat
  let den := 1 <<< (-e).toNat
  if den ≤ num then Digits.count (num / den) - 1 else -(Digits.count (den / num) : Int)

/-- The better of the two neighbours on a decimal grid, when one of them reads back. -/
def onGrid? (tie : Tie) (i : Interval) (k : Int) : Option Decimal :=
  let (middle, unit) := commonScale i.middle i.exponent 1 k
  let below := middle / unit
  let above := below + 1
  let takeAbove :=
    match tie with
    | .even => 2 * (middle % unit) > unit || (2 * (middle % unit) == unit && below % 2 == 1)
    | .up => 2 * (middle % unit) ≥ unit
  match i.holds below k, i.holds above k with
  | true, true => some ⟨if takeAbove then above else below, k⟩
  | true, false => some ⟨below, k⟩
  | false, true => some ⟨above, k⟩
  | false, false => none

/--
The shortest decimal of a finite number other than zero, its sign left aside. Seventeen digits
always suffice, so the last grid needs no test.
-/
def decimal (tie : Tie) (x : Binary64) : Decimal :=
  let i := interval x
  let top := leadingExponent i.middle i.exponent
  let grids := (List.range 17).map fun (n : Nat) => top - (n : Int)
  match grids.findSome? (onGrid? tie i) with
  | some d => d.normalize
  | none =>
    let (middle, unit) := commonScale i.middle i.exponent 1 (top - 16)
    (Decimal.mk (middle / unit) (top - 16)).normalize

end KeywordRunner.Shortest
