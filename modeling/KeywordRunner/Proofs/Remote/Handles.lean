import KeywordRunner.Proofs.Numeral.Exact
import KeywordRunner.Proofs.Remote.Rehydration

/-!
# Proofs.Remote.Handles — which members are handles, and of what

A handle names an instance on the device, so a handle that is read must be the one that was written,
bit by bit: a number next to it would name another instance. Devices write handles as integers, as
binary64 numbers and as texts. Whatever is written, the handle has exactly its value, and a number
that no handle has makes a record of the object.

* **`Designates`** — a member and the handle it stands for.
* **`handleOfJson?_eq_some_iff`** — reading a handle is this relation.
* **`handles_are_exact`** — which objects are handles, of which instance, and which are records.
-/

namespace KeywordRunner

/-- The exact value of a number. -/
def JsonNumber.value : JsonNumber → ℚ
  | .int i => i.val
  | .real x _ => x.value

namespace RemoteValue

open Signed (Fits64 IsNumeral)

/-- A member that stands for a handle: a number of exactly its value, short of `2 ^ 63` if it is a
binary64 number, or a text that is its numeral once trimmed. -/
inductive Designates : Json → Int64 → Prop where
  | integer {w : WideInt} {hash : Int64} (hvalue : w.val = hash.toInt) :
      Designates (.num (.int w)) hash
  | real {x : Binary64} {finite : x.isFinite = true} {hash : Int64}
      (hvalue : x.value = hash.toInt) (hsmall : |x.value| < 2 ^ 63) :
      Designates (.num (.real x finite)) hash
  | text {s : String} {hash : Int64}
      (hnumeral : IsNumeral (Text.trimChars s.toList) hash.toInt) : Designates (.str s) hash

variable {hash : Int64} {n : JsonNumber} {fields : Table Json} {className : String}

/-! ## Each kind of member -/

theorem toInt64?_eq_some_iff {w : WideInt} : w.toInt64? = some hash ↔ w.val = hash.toInt := by
  constructor
  · intro h
    rw [WideInt.eq_ofInt64_of_toInt64? h]
    rfl
  · intro hvalue
    have hupper : w.val < 0x8000000000000000 := hvalue ▸ hash.toInt_lt
    unfold WideInt.toInt64?
    rw [if_pos hupper, hvalue, Int64.ofInt_toInt]

/-- The test for size is one on integers, where it is exact. -/
theorem abs_lt_iff {x : Binary64} {i : ℤ} (hvalue : x.value = i) :
    |x.value| < 2 ^ 63 ↔ -0x8000000000000000 < i ∧ i < 0x8000000000000000 := by
  rw [hvalue, abs_lt]
  constructor
  · rintro ⟨hlower, hupper⟩
    have hlower' : -(2 ^ 63 : ℤ) < i := by exact_mod_cast hlower
    have hupper' : i < (2 ^ 63 : ℤ) := by exact_mod_cast hupper
    omega
  · rintro ⟨hlower, hupper⟩
    have hlower' : -(2 ^ 63 : ℤ) < i := by omega
    have hupper' : i < (2 ^ 63 : ℤ) := by omega
    exact ⟨by exact_mod_cast hlower', by exact_mod_cast hupper'⟩

theorem handleOfJson?_real_iff {x : Binary64} {finite : x.isFinite = true} :
    handleOfJson? (.num (.real x finite)) = some hash ↔
      x.value = hash.toInt ∧ |x.value| < 2 ^ 63 := by
  show (x.toInt?.bind fun i =>
    if -0x8000000000000000 < i ∧ i < 0x8000000000000000 then some (Int64.ofInt i) else none)
      = some hash ↔ _
  constructor
  · intro h
    obtain ⟨i, hi, h⟩ := Option.bind_eq_some_iff.1 h
    have hvalue : x.value = i := (Binary64.toInt?_eq_some_iff finite).1 hi
    split at h
    · next hrange =>
      cases h
      rw [Int64.toInt_ofInt_of_le (by omega) hrange.2]
      exact ⟨hvalue, (abs_lt_iff hvalue).2 hrange⟩
    · exact absurd h (by simp)
  · rintro ⟨hvalue, hsmall⟩
    rw [(Binary64.toInt?_eq_some_iff finite).2 hvalue, Option.bind_some,
      if_pos ((abs_lt_iff hvalue).1 hsmall), Int64.ofInt_toInt]

/-- **A handle is read from the members that stand for it**, and from no others. -/
theorem handleOfJson?_eq_some_iff {j : Json} : handleOfJson? j = some hash ↔ Designates j hash := by
  constructor
  · intro h
    cases j with
    | num n =>
      cases n with
      | int w => exact .integer (toInt64?_eq_some_iff.1 h)
      | real x finite =>
        obtain ⟨hvalue, hsmall⟩ := handleOfJson?_real_iff.1 h
        exact .real hvalue hsmall
    | str s => exact .text (Signed.read64?_eq_some_iff.1 h)
    | null | bool _ | arr _ | obj _ => exact absurd h (by simp [handleOfJson?])
  · intro h
    cases h with
    | integer hvalue => exact toInt64?_eq_some_iff.2 hvalue
    | real hvalue hsmall => exact handleOfJson?_real_iff.2 ⟨hvalue, hsmall⟩
    | text hnumeral => exact Signed.read64?_eq_some_iff.2 hnumeral

/-! ## Objects -/

/-- An object is a handle exactly if its hash stands for one and its class name is a text. -/
theorem handles_iff :
    Handles fields.entries hash className ↔
      (∃ j, fields.get? hashKey = some j ∧ Designates j hash) ∧
        fields.get? classNameKey = some (.str className) := by
  constructor
  · intro h
    obtain ⟨j, hj, hhash⟩ := Option.bind_eq_some_iff.1 h.1
    exact ⟨⟨j, hj, handleOfJson?_eq_some_iff.1 hhash⟩, get?_classNameKey_of_handles h⟩
  · rintro ⟨⟨j, hj, hhash⟩, hclass⟩
    refine ⟨Option.bind_eq_some_iff.2 ⟨j, hj, handleOfJson?_eq_some_iff.2 hhash⟩, ?_⟩
    exact Option.bind_eq_some_iff.2 ⟨.str className, hclass, rfl⟩

/-- A number stands for a handle of its own value only. -/
theorem value_of_designates (h : Designates (.num n) hash) : n.value = hash.toInt := by
  cases h with
  | integer hvalue => exact congrArg (Int.cast : ℤ → ℚ) hvalue
  | real hvalue _ => exact hvalue

/-- A number that no handle can have: no integer, one beyond 64 bits, or one that only a binary64
number of at least `2 ^ 63` is written as. -/
def IsUnusable (n : JsonNumber) : Prop :=
  (∀ i : ℤ, n.value ≠ i) ∨ (∃ i : ℤ, n.value = i ∧ ¬Fits64 i) ∨
    ∃ x finite, n = .real x finite ∧ 2 ^ 63 ≤ |x.value|

theorem not_designates_of_isUnusable (h : IsUnusable n) : ¬Designates (.num n) hash := by
  intro hhash
  have hvalue := value_of_designates hhash
  rcases h with hfraction | ⟨i, hi, hwide⟩ | ⟨x, finite, rfl, hlarge⟩
  · exact hfraction hash.toInt hvalue
  · have heq : i = hash.toInt := by exact_mod_cast hi.symm.trans hvalue
    exact hwide (heq ▸ Signed.fits64_toInt hash)
  · cases hhash with
    | real _ hsmall => exact absurd hlarge (not_le.2 hsmall)

/-- **Handles are exact.** If an object is read as a handle, its hash is a number whose exact value
is the handle, or a text that is a numeral of the handle once trimmed. If the hash is a number that
is no integer, or one beyond 64 signed bits, or a binary64 number of at least `2 ^ 63`, then the
object is a record of all its members. And with a class name, every hash that stands for a handle
makes the object this handle. -/
theorem handles_are_exact :
    (∀ (fields : Table Json) (o : ObjectRef), ofJson (.obj fields.entries) = .object o →
      (∃ n : JsonNumber, fields.get? hashKey = some (.num n) ∧ n.value = o.hash.toInt) ∨
      ∃ s : String, fields.get? hashKey = some (.str s) ∧
        IsNumeral (Text.trimChars s.toList) o.hash.toInt) ∧
    (∀ (fields : Table Json) (n : JsonNumber), fields.get? hashKey = some (.num n) →
      IsUnusable n → ofJson (.obj fields.entries) = .record fields) ∧
    ∀ (fields : Table Json) (j : Json) (hash : Int64) (className : String),
      fields.get? hashKey = some j → Designates j hash →
      fields.get? classNameKey = some (.str className) →
      ofJson (.obj fields.entries) = .object ⟨hash, className, otherMembers fields⟩ := by
  refine ⟨fun fields o hread => ?_, fun fields n hn hunusable => ?_,
    fun fields j hash className hj hhash hclass => ?_⟩
  · rcases ofMembers_cases fields with ⟨hash, className, hhandles, heq⟩ | ⟨_, heq⟩
    · cases heq.symm.trans hread
      obtain ⟨⟨j, hj, hhash⟩, _⟩ := handles_iff.1 hhandles
      cases hhash with
      | integer hvalue => exact Or.inl ⟨_, hj, value_of_designates (.integer hvalue)⟩
      | real hvalue hsmall => exact Or.inl ⟨_, hj, hvalue⟩
      | text hnumeral => exact Or.inr ⟨_, hj, hnumeral⟩
    · exact absurd (heq.symm.trans hread) (by simp)
  · refine ofMembers_entries_of_not_handles fun hash className hhandles => ?_
    obtain ⟨⟨j, hj, hhash⟩, _⟩ := handles_iff.1 hhandles
    cases hn.symm.trans hj
    exact not_designates_of_isUnusable hunusable hhash
  · exact ofMembers_entries_of_handles (handles_iff.2 ⟨⟨j, hj, hhash⟩, hclass⟩)

/-- An object with a class name and this hash. -/
def withHash (hash : Json) : Table Json :=
  Table.ofList [(classNameKey, .str "a.View"), (hashKey, hash)]

/-- The binary64 number with this word, which is finite. -/
def word (bits : UInt64) (finite : (Binary64.mk bits).isFinite = true := by decide) : JsonNumber :=
  .real ⟨bits⟩ finite

/-- The greatest binary64 number below `2 ^ 63` is a handle and is that number; the next one is
none, nor is the same value as an unsigned integer, nor four and a half; and a text with blanks
around it, a sign and zeros in front is the handle it denotes. -/
theorem handles_are_exact_at_limits :
    (ofJson (.obj (withHash (.num (word 0x43DFFFFFFFFFFFFF))).entries)
        = .object ⟨9223372036854774784, "a.View", ∅⟩ ∧
      (word 0x43DFFFFFFFFFFFFF).value = 9223372036854774784) ∧
    ofJson (.obj (withHash (.num (word 0x43E0000000000000))).entries)
      = .record (withHash (.num (word 0x43E0000000000000))) ∧
    ofJson (.obj (withHash (Json.ofUInt64 9223372036854775808)).entries)
      = .record (withHash (Json.ofUInt64 9223372036854775808)) ∧
    ofJson (.obj (withHash (.num (word 0x4012000000000000))).entries)
      = .record (withHash (.num (word 0x4012000000000000))) ∧
    ofJson (.obj (withHash (.str " -0042 ")).entries)
      = .object ⟨-42, "a.View", otherMembers (withHash (.str " -0042 "))⟩ := by
  obtain ⟨hexact, hrecord, hobject⟩ := handles_are_exact
  have hlimit : ofJson (.obj (withHash (.num (word 0x43DFFFFFFFFFFFFF))).entries)
      = .object ⟨9223372036854774784, "a.View", ∅⟩ := by
    cbv
  refine ⟨⟨hlimit, ?_⟩, hrecord _ _ rfl ?_, hrecord _ _ rfl ?_, hrecord _ _ rfl ?_,
    hobject _ _ _ _ rfl (.text ?_) rfl⟩
  · rcases hexact _ _ hlimit with ⟨n, hn, hvalue⟩ | ⟨s, hs, _⟩
    · cases (show some (Json.num (word 0x43DFFFFFFFFFFFFF)) = some (.num n) from hn)
      exact hvalue
    · cases (show some (Json.num (word 0x43DFFFFFFFFFFFFF)) = some (.str s) from hs)
  · refine Or.inr (Or.inr ⟨_, _, rfl, ?_⟩)
    rw [Binary64.abs_value, Binary64.magnitude, show Binary64.significand _ = 2 ^ 52 from rfl,
      show Binary64.exponent _ = 11 from rfl]
    norm_num
  · exact Or.inr (Or.inl ⟨9223372036854775808, rfl, by decide⟩)
  · have hnone : Binary64.toInt? ⟨0x4012000000000000⟩ = none := by cbv
    have hfinite : Binary64.isFinite ⟨0x4012000000000000⟩ = true := by decide
    refine Or.inl fun i hi => ?_
    have hsome := (Binary64.toInt?_eq_some_iff hfinite).2 hi
    rw [hnone] at hsome
    exact absurd hsome (by simp)
  · rw [show Text.trimChars " -0042 ".toList = ['-', '0', '0', '4', '2'] by cbv,
      show (-42 : Int64).toInt = -(Digits.value ['0', '0', '4', '2'] : Int) by cbv]
    exact .minus (by simp) (by simp)

end RemoteValue

end KeywordRunner
