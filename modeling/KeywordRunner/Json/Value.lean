import KeywordRunner.Numeral.Binary64
import KeywordRunner.Table

/-!
# Json.Value — JSON values

A number is an integer of 64 bits, signed or unsigned, or a finite binary64 number; an object is
its member list. `Json.Canonical` says that members are in key order everywhere, which is how
values read from a text come out; a value built for writing may list members in any order.
-/

namespace KeywordRunner

/-- An integer that a signed or an unsigned 64-bit word holds. -/
structure WideInt where
  val : Int
  lower : -0x8000000000000000 ≤ val := by decide
  upper : val < 0x10000000000000000 := by decide
  deriving DecidableEq, Repr

namespace WideInt

/-- The integer, when it is within the range. -/
def ofInt? (i : Int) : Option WideInt :=
  if h : -0x8000000000000000 ≤ i ∧ i < 0x10000000000000000 then some ⟨i, h.1, h.2⟩ else none

theorem lower_int64 (i : Int64) : -0x8000000000000000 ≤ i.toInt := i.le_toInt

theorem upper_int64 (i : Int64) : i.toInt < 0x10000000000000000 :=
  Int.lt_of_lt_of_le i.toInt_lt (by decide)

def ofInt64 (i : Int64) : WideInt := ⟨i.toInt, lower_int64 i, upper_int64 i⟩

theorem upper_uint64 (n : UInt64) : (n.toNat : Int) < 0x10000000000000000 := by
  have := n.toNat_lt
  omega

def ofUInt64 (n : UInt64) : WideInt := ⟨n.toNat, by omega, upper_uint64 n⟩

/-- The signed 64-bit integer, when the value is in the signed range. -/
def toInt64? (w : WideInt) : Option Int64 :=
  if w.val < 0x8000000000000000 then some (Int64.ofInt w.val) else none

end WideInt

inductive JsonNumber where
  | int (i : WideInt)
  | real (x : Binary64) (finite : x.isFinite = true)
  deriving DecidableEq, Repr

namespace JsonNumber

/-- Numerical equality within one kind; an integer never equals a binary64 number. -/
def same : JsonNumber → JsonNumber → Bool
  | .int i, .int j => i == j
  | .real x _, .real y _ => x.same y
  | _, _ => false

end JsonNumber

inductive Json where
  | null
  | bool (b : Bool)
  | num (n : JsonNumber)
  | str (s : String)
  | arr (items : List Json)
  | obj (members : List (String × Json))
  deriving Inhabited, Repr

namespace Json

def ofInt64 (i : Int64) : Json := .num (.int (WideInt.ofInt64 i))

def ofUInt64 (n : UInt64) : Json := .num (.int (WideInt.ofUInt64 n))

def str? : Json → Option String
  | .str s => some s
  | _ => none

mutual

/-- Equality of values, with numerical equality of numbers. -/
def same : Json → Json → Bool
  | .null, .null => true
  | .bool a, .bool b => a == b
  | .num a, .num b => a.same b
  | .str a, .str b => a == b
  | .arr as, .arr bs => sameItems as bs
  | .obj as, .obj bs => sameMembers as bs
  | _, _ => false

def sameItems : List Json → List Json → Bool
  | [], [] => true
  | a :: as, b :: bs => same a b && sameItems as bs
  | _, _ => false

def sameMembers : List (String × Json) → List (String × Json) → Bool
  | [], [] => true
  | (k, a) :: as, (l, b) :: bs => k == l && same a b && sameMembers as bs
  | _, _ => false

end

mutual

/-- Members are in key order, in the value and everywhere inside it. -/
def Canonical : Json → Prop
  | .arr items => CanonicalItems items
  | .obj members => Entries.Sorted members ∧ CanonicalMembers members
  | _ => True

def CanonicalItems : List Json → Prop
  | [] => True
  | j :: js => Canonical j ∧ CanonicalItems js

def CanonicalMembers : List (String × Json) → Prop
  | [] => True
  | (_, j) :: ms => Canonical j ∧ CanonicalMembers ms

end

mutual

/-- The number of containers nested inside each other, this one included. -/
def depth : Json → Nat
  | .arr items => depthItems items + 1
  | .obj members => depthMembers members + 1
  | _ => 0

def depthItems : List Json → Nat
  | [] => 0
  | j :: js => max (depth j) (depthItems js)

def depthMembers : List (String × Json) → Nat
  | [] => 0
  | (_, j) :: ms => max (depth j) (depthMembers ms)

end

end Json

end KeywordRunner
