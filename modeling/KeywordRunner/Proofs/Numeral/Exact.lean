import KeywordRunner.Numeral.Binary64
import KeywordRunner.Proofs.Numeral.Canonical
import Mathlib

/-!
# Proofs.Numeral.Exact — the exact number that a text or a word stands for

A text stands for an integer by its digits and its sign, and the word of a finite binary64 number
for a significand times a power of two, which is a rational number. Both readers of integers are
exact: they give the integer that the text or the word stands for, and where that is no integer they
give none.

* **`Signed.read?_eq_some_iff`** — the integer of a text.
* **`Binary64.toInt?_eq_some_iff`** — the integer of a finite number.
-/

namespace KeywordRunner

/-- The readers cast a natural number to an integer before they give it its sign. -/
theorem map_bind_natCast (o : Option Nat) (f : Int → Int) :
    ((o >>= fun n => pure (n : Int)).map f) = o.map fun n : Nat => f n := by
  cases o <;> rfl

/-! ## Texts -/

namespace Signed

/-- A numeral and its integer: at least one digit, behind a sign or without one. -/
inductive IsNumeral : List Char → Int → Prop where
  | unsigned {ds : List Char} (hne : ds ≠ []) (hdigits : ∀ c ∈ ds, c.isDigit = true) :
      IsNumeral ds (Digits.value ds)
  | plus {ds : List Char} (hne : ds ≠ []) (hdigits : ∀ c ∈ ds, c.isDigit = true) :
      IsNumeral ('+' :: ds) (Digits.value ds)
  | minus {ds : List Char} (hne : ds ≠ []) (hdigits : ∀ c ∈ ds, c.isDigit = true) :
      IsNumeral ('-' :: ds) (-(Digits.value ds : Int))

variable {cs : List Char} {i : Int}

theorem readNatural?_digits (hne : cs ≠ []) (hdigits : ∀ c ∈ cs, c.isDigit = true) :
    readNatural? cs = some (Digits.value cs) := by
  rw [readNatural?, if_neg hne, if_pos (List.all_eq_true.2 hdigits)]

theorem read?_plus (ds : List Char) :
    read? ('+' :: ds) = (readNatural? ds).map fun n : Nat => (n : Int) :=
  map_bind_natCast (readNatural? ds) fun i => i

theorem read?_minus (ds : List Char) :
    read? ('-' :: ds) = (readNatural? ds).map fun n : Nat => -(n : Int) :=
  map_bind_natCast (readNatural? ds) fun i => -i

theorem read?_unsigned (hplus : ∀ ds, cs ≠ '+' :: ds) (hminus : ∀ ds, cs ≠ '-' :: ds) :
    read? cs = (readNatural? cs).map fun n : Nat => (n : Int) := by
  unfold read?
  split
  · next ds => exact absurd rfl (hminus ds)
  · next ds => exact absurd rfl (hplus ds)
  · exact map_bind_natCast (readNatural? cs) fun i => i

/-- **A text is read as the integer that it is a numeral of**, and as nothing else. -/
theorem read?_eq_some_iff : read? cs = some i ↔ IsNumeral cs i := by
  constructor
  · intro h
    by_cases hminus : ∃ ds, cs = '-' :: ds
    · obtain ⟨ds, rfl⟩ := hminus
      rw [read?_minus] at h
      obtain ⟨n, hread, rfl⟩ := Option.map_eq_some_iff.1 h
      obtain ⟨hne, hdigits, rfl⟩ := readNatural?_eq_some hread
      exact .minus hne hdigits
    by_cases hplus : ∃ ds, cs = '+' :: ds
    · obtain ⟨ds, rfl⟩ := hplus
      rw [read?_plus] at h
      obtain ⟨n, hread, rfl⟩ := Option.map_eq_some_iff.1 h
      obtain ⟨hne, hdigits, rfl⟩ := readNatural?_eq_some hread
      exact .plus hne hdigits
    · rw [read?_unsigned (not_exists.1 hplus) (not_exists.1 hminus)] at h
      obtain ⟨n, hread, rfl⟩ := Option.map_eq_some_iff.1 h
      obtain ⟨hne, hdigits, rfl⟩ := readNatural?_eq_some hread
      exact .unsigned hne hdigits
  · intro h
    cases h with
    | unsigned hne hdigits =>
      rw [read?_digits hdigits, readNatural?_digits hne hdigits, map_bind_natCast, Option.map_some]
    | plus hne hdigits => rw [read?_plus, readNatural?_digits hne hdigits, Option.map_some]
    | minus hne hdigits => rw [read?_minus, readNatural?_digits hne hdigits, Option.map_some]

/-- The strict reader takes the numerals of integers of 64 bits. -/
theorem read64?_eq_some_iff {i : Int64} : read64? cs = some i ↔ IsNumeral cs i.toInt := by
  constructor
  · intro h
    exact read?_eq_some_iff.1 (read?_of_read64? h)
  · intro h
    unfold read64?
    rw [read?_eq_some_iff.2 h, Option.bind_some, if_pos (fits64_toInt i), Int64.ofInt_toInt]

end Signed

/-! ## Words -/

namespace Binary64

/-- The magnitude of a finite number: its significand in units of its last place. -/
def magnitude (x : Binary64) : ℚ := x.significand * (2 : ℚ) ^ x.exponent

/-- The exact value of a finite number. -/
def value (x : Binary64) : ℚ := if x.isNegative then -x.magnitude else x.magnitude

variable {x : Binary64}

theorem magnitude_nonneg (x : Binary64) : 0 ≤ x.magnitude := by
  unfold magnitude
  positivity

theorem abs_value (x : Binary64) : |x.value| = x.magnitude := by
  unfold value
  split
  · rw [abs_neg, abs_of_nonneg x.magnitude_nonneg]
  · exact abs_of_nonneg x.magnitude_nonneg

/-- A natural number counted in halves of halves is a multiple of the unit. -/
theorem mul_zpow_neg_eq_iff (m n k : ℕ) : (m : ℚ) * 2 ^ (-(k : ℤ)) = n ↔ m = n * 2 ^ k := by
  have hpow : (2 : ℚ) ^ k ≠ 0 := by positivity
  rw [zpow_neg, zpow_natCast, mul_inv_eq_iff_eq_mul₀ hpow]
  exact_mod_cast Iff.rfl

theorem naturalMagnitude?_eq_some_iff (h : x.isFinite = true) {n : ℕ} :
    x.naturalMagnitude? = some n ↔ x.magnitude = n := by
  unfold naturalMagnitude? magnitude
  rw [h, if_neg (by simp)]
  by_cases hexponent : 0 ≤ x.exponent
  · obtain ⟨k, hk⟩ := Int.eq_ofNat_of_zero_le hexponent
    rw [if_pos hexponent, hk, Int.toNat_natCast, Nat.shiftLeft_eq, zpow_natCast, Option.some_inj]
    exact_mod_cast Iff.rfl
  · obtain ⟨k, hk⟩ : ∃ k : ℕ, x.exponent = -(k : ℤ) := ⟨(-x.exponent).toNat, by omega⟩
    rw [if_neg hexponent, hk, neg_neg, Int.toNat_natCast, Nat.one_shiftLeft, mul_zpow_neg_eq_iff]
    dsimp only
    split
    · next hmultiple =>
      rw [Option.some_inj]
      exact Nat.div_eq_iff_eq_mul_left (Nat.two_pow_pos k) (Nat.dvd_of_mod_eq_zero hmultiple)
    · next hrest =>
      -- what is left over below the unit is no multiple of it
      refine iff_of_false (by simp) fun heq => hrest ?_
      rw [heq, Nat.mul_mod_left]

/-- **A finite number is read as the integer that it is**, and as none if it is no integer. -/
theorem toInt?_eq_some_iff (h : x.isFinite = true) {i : ℤ} : x.toInt? = some i ↔ x.value = i := by
  have hnonneg := x.magnitude_nonneg
  unfold toInt? value
  rw [map_bind_natCast, Option.map_eq_some_iff]
  by_cases hsign : x.isNegative = true
  · simp only [if_pos hsign, naturalMagnitude?_eq_some_iff h]
    constructor
    · rintro ⟨n, hn, rfl⟩
      rw [hn, Int.cast_neg, Int.cast_natCast]
    · intro heq
      have hi : i ≤ 0 := by exact_mod_cast (by linarith : (i : ℚ) ≤ 0)
      obtain ⟨n, hn⟩ := Int.eq_ofNat_of_zero_le (neg_nonneg.2 hi)
      refine ⟨n, ?_, by omega⟩
      have hcast : (-i : ℚ) = n := by exact_mod_cast hn
      linarith
  · simp only [if_neg hsign, naturalMagnitude?_eq_some_iff h]
    constructor
    · rintro ⟨n, hn, rfl⟩
      rw [hn, Int.cast_natCast]
    · intro heq
      have hi : 0 ≤ i := by exact_mod_cast (by linarith : (0 : ℚ) ≤ i)
      obtain ⟨n, rfl⟩ := Int.eq_ofNat_of_zero_le hi
      exact ⟨n, by exact_mod_cast heq, rfl⟩

end Binary64

end KeywordRunner
