import KeywordRunner.Numeral.Nearest

/-!
# Proofs.Numeral.Rounding — integers are rounded to finite numbers

An integer is rounded in units of a power of two that leave at most 53 bits of it. The word of the
result is the unit's exponent above these bits, so it stays below that of an infinity as long as the
exponent does, whether the bits are rounded up or not.

* **`Binary64.isFinite_ofParts`** — which words are those of finite numbers.
* **`Nearest.isFinite_ofInt`** — an integer below `2 ^ 1023` has a finite nearest number.
-/

namespace KeywordRunner

theorem Binary64.isFinite_ofParts {magnitude : Nat} (h : magnitude < infinityMagnitude)
    (negative : Bool) : (ofParts negative magnitude).isFinite = true := by
  have hmagnitude : magnitude < 2047 * 2 ^ 52 := h
  have hword : (ofParts negative magnitude).bits.toNat
      = if negative then 2 ^ 63 + magnitude else magnitude := by
    show (UInt64.ofNat (if negative then 2 ^ 63 + magnitude else magnitude)).toNat = _
    exact UInt64.toNat_ofNat_of_lt' (by cases negative <;> simp [UInt64.size] <;> omega)
  have hbiased : (ofParts negative magnitude).biased ≠ 2047 := by
    unfold biased
    rw [hword, Nat.shiftRight_eq_div_pow]
    cases negative <;> simp <;> omega
  exact bne_iff_ne.2 hbiased

namespace Nearest

/-- A quotient is rounded to one of its two neighbours. -/
theorem divide_le (num den : Nat) : divide num den ≤ num / den + 1 := by
  unfold divide
  dsimp only
  split
  · omega
  · split
    · omega
    · split <;> omega

/-- A unit that is large enough leaves at most 53 bits. -/
theorem div_scale_lt {num : Nat} {e : Int} (h : (num.log2 : Int) ≤ e + 52) :
    (scale num 1 e).1 / (scale num 1 e).2 < 0x20000000000000 := by
  show _ < 2 ^ 53
  have hnum : num < 2 ^ (num.log2 + 1) := Nat.lt_log2_self
  unfold scale
  split
  · next he =>
    have hpow : 2 ^ (num.log2 + 1) ≤ 2 ^ (53 + e.toNat) :=
      Nat.pow_le_pow_right (by decide) (by omega)
    rw [Nat.one_shiftLeft, Nat.div_lt_iff_lt_mul (Nat.two_pow_pos _), ← Nat.pow_add]
    exact Nat.lt_of_lt_of_le hnum hpow
  · next he =>
    have hpow : 2 ^ (num.log2 + 1 + (-e).toNat) ≤ 2 ^ 53 :=
      Nat.pow_le_pow_right (by decide) (by omega)
    have hscaled : num * 2 ^ (-e).toNat < 2 ^ (num.log2 + 1 + (-e).toNat) := by
      rw [Nat.pow_add]
      exact Nat.mul_lt_mul_of_pos_right hnum (Nat.two_pow_pos _)
    rw [Nat.shiftLeft_eq, Nat.div_one]
    exact Nat.lt_of_lt_of_le hscaled hpow

/-- The unit of an integer leaves at most 53 bits, and it is no larger than that takes. -/
theorem unitExponent_spec (num : Nat) :
    (scale num 1 (unitExponent num 1)).1 / (scale num 1 (unitExponent num 1)).2 < 0x20000000000000 ∧
      unitExponent num 1 ≤ max ((num.log2 : Int) - 52) (-1073) := by
  unfold unitExponent
  rw [show Nat.log2 1 = 0 from rfl]
  dsimp only
  split
  · next hfew => exact ⟨hfew, by omega⟩
  · exact ⟨div_scale_lt (by omega), by omega⟩

theorem isFinite_ofInt {i : Int} (h : i.natAbs.log2 < 1023) : (ofInt i).isFinite = true := by
  unfold ofInt ofRatio
  split
  · exact Binary64.isFinite_ofParts (by decide) _
  · have hspec := unitExponent_spec i.natAbs
    dsimp only
    generalize unitExponent i.natAbs 1 = e at hspec ⊢
    obtain ⟨hbits, hunit⟩ := hspec
    have hrounded := divide_le (scale i.natAbs 1 e).1 (scale i.natAbs 1 e).2
    -- rounded up, 53 bits may carry into the exponent, which has room for it
    have hmagnitude : (e + 1074).toNat * 2 ^ 52
        + divide (scale i.natAbs 1 e).1 (scale i.natAbs 1 e).2 < Binary64.infinityMagnitude := by
      show _ < 2047 * 2 ^ 52
      omega
    rw [Nat.shiftLeft_eq, if_pos hmagnitude]
    exact Binary64.isFinite_ofParts hmagnitude _

end Nearest

end KeywordRunner
