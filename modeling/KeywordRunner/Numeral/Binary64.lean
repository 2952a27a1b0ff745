/-!
# Numeral.Binary64 — double-precision numbers by their bits

A binary64 number is its 64-bit word. Its finite values are `significand * 2 ^ exponent`, with
the sign of the top bit; everything the library asks of a number (is it integral, which integer
is it, does it equal another) is computed exactly from these two integers.
-/

namespace KeywordRunner

/-- A binary64 number, given by its interchange word. -/
structure Binary64 where
  bits : UInt64
  deriving DecidableEq, Inhabited, Repr

namespace Binary64

def isNegative (x : Binary64) : Bool := x.bits.toNat >>> 63 == 1

/-- The biased exponent field. -/
def biased (x : Binary64) : Nat := (x.bits.toNat >>> 52) % 2048

/-- The trailing significand field. -/
def fraction (x : Binary64) : Nat := x.bits.toNat % 0x10000000000000

/-- Neither an infinity nor a NaN. -/
def isFinite (x : Binary64) : Bool := x.biased != 2047

def isNaN (x : Binary64) : Bool := x.biased == 2047 && x.fraction != 0

def isZero (x : Binary64) : Bool := x.biased == 0 && x.fraction == 0

/-- The integer significand of a finite number, hidden bit included. -/
def significand (x : Binary64) : Nat :=
  if x.biased = 0 then x.fraction else 0x10000000000000 + x.fraction

/-- The power of two that the significand counts. -/
def exponent (x : Binary64) : Int := (max x.biased 1 : Nat) - 1075

/-- The numbers of one sign in their word order: the word below the sign bit is `magnitude`. -/
def ofParts (negative : Bool) (magnitude : Nat) : Binary64 :=
  ⟨UInt64.ofNat (if negative then 0x8000000000000000 + magnitude else magnitude)⟩

/-- The word of an infinity, below the sign bit. -/
def infinityMagnitude : Nat := 0x7FF0000000000000

def infinity (negative : Bool) : Binary64 := ofParts negative infinityMagnitude

/-- The quiet NaN without payload. -/
def nan (negative : Bool) : Binary64 := ofParts negative (infinityMagnitude + 0x8000000000000)

def zero (negative : Bool) : Binary64 := ofParts negative 0

/-- Numerical equality: the two zeros are equal and a NaN equals nothing. -/
def same (x y : Binary64) : Bool :=
  !x.isNaN && !y.isNaN && (x == y || (x.isZero && y.isZero))

/-- The magnitude of a finite number, when that is an integer. -/
def naturalMagnitude? (x : Binary64) : Option Nat :=
  if !x.isFinite then none
  else if 0 ≤ x.exponent then some (x.significand <<< x.exponent.toNat)
  else
    let unit := 1 <<< (-x.exponent).toNat
    if x.significand % unit = 0 then some (x.significand / unit) else none

/-- The exact integer that the number is, when it is one. -/
def toInt? (x : Binary64) : Option Int :=
  x.naturalMagnitude?.map fun n => if x.isNegative then -(n : Int) else n

end Binary64

end KeywordRunner
