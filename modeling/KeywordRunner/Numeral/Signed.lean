import KeywordRunner.Numeral.Digits

/-!
# Numeral.Signed — signed decimal integers

Integers as text: an optional sign and at least one digit, nothing else, and a reader that
accepts only those within the signed 64-bit range. Writing is canonical (no plus sign, no
leading zeros); reading also takes `+7`, `007` and `-0`.
-/

namespace KeywordRunner.Signed

def write (i : Int) : List Char :=
  match i with
  | .ofNat n => Digits.write n
  | .negSucc n => '-' :: Digits.write (n + 1)

/-- The number denoted by a text of digits only; an empty text denotes none. -/
def readNatural? (cs : List Char) : Option Nat :=
  if cs = [] then none
  else if cs.all Char.isDigit then some (Digits.value cs)
  else none

/-- The number denoted by digits that may have a plus sign. -/
def readUnsigned? : List Char → Option Nat
  | '+' :: cs => readNatural? cs
  | cs => readNatural? cs

/-- The integer denoted by an optionally signed digit sequence. -/
def read? : List Char → Option Int
  | '-' :: cs => (readNatural? cs).map fun n => -(n : Int)
  | '+' :: cs => (readNatural? cs).map fun n => (n : Int)
  | cs => (readNatural? cs).map fun n => (n : Int)

/-- Whether an integer is representable in signed 64-bit words. -/
def Fits64 (i : Int) : Prop := -0x8000000000000000 ≤ i ∧ i < 0x8000000000000000

instance (i : Int) : Decidable (Fits64 i) := by unfold Fits64; exact inferInstance

/-- A signed 64-bit integer, read strictly: a value outside the range is refused. -/
def read64? (cs : List Char) : Option Int64 :=
  (read? cs).bind fun i => if Fits64 i then some (Int64.ofInt i) else none

/-- The text of a signed 64-bit integer. -/
def text64 (i : Int64) : String := String.ofList (write i.toInt)

end KeywordRunner.Signed
