import KeywordRunner.Numeral.Signed
import Mathlib.Data.List.Induction
import Mathlib.Data.List.TakeWhile

/-!
# Proofs.Numeral.Canonical — the one numeral of a number that is written

Reading takes more numerals than writing gives: one with a plus sign, one with zeros in front of
other digits, and a zero with a minus sign. These are all: any other numeral that is read as an
integer is the one that the integer is written as.

* **`Digits.write_value`** — digits without a zero in front are written again.
* **`Signed.read64?_write`** — integers come back from their numerals.
* **`Signed.write_eq_iff`** — which numerals come back from their integers.
-/

namespace KeywordRunner

/-! ## Natural numbers -/

namespace Digits

theorem span_write (n : Nat) : span (write n) = (write n, []) := by
  have hdigits := write_isDigit n
  rw [span, List.takeWhile_eq_self_iff.2 hdigits, List.dropWhile_eq_nil_iff.2 hdigits]

theorem write_zero : write 0 = ['0'] := by
  rw [write_eq]
  rfl

/-- Only zero has a numeral that starts with a zero. -/
theorem head?_write_ne_zero {n : Nat} (h : n ≠ 0) : (write n).head? ≠ some '0' := by
  induction n using Nat.strongRecOn with
  | _ n ih =>
    rw [write_eq]
    split
    · next hsmall =>
      have key : ∀ d : Fin 10, d.val ≠ 0 → ofDigit d.val ≠ '0' := by decide
      simpa using key ⟨n, hsmall⟩ h
    · have hquotient := ih (n / 10) (by omega) (by omega)
      obtain ⟨c, rest, hwrite⟩ := List.exists_cons_of_ne_nil (write_ne_nil (n / 10))
      rw [hwrite] at hquotient ⊢
      exact hquotient

theorem digitValue_lt {c : Char} (h : c.isDigit = true) : digitValue c < 10 := by
  have hupper : c.toNat ≤ 57 := (Char.isDigit_iff_toNat.1 h).2
  unfold digitValue
  omega

theorem ofDigit_digitValue {c : Char} (h : c.isDigit = true) : ofDigit (digitValue c) = c := by
  have hlower : 48 ≤ c.toNat := (Char.isDigit_iff_toNat.1 h).1
  have hcode : 48 + (c.toNat - 48) = c.toNat := by omega
  unfold ofDigit digitValue
  rw [hcode, Char.ofNat_toNat]

/-- **Digits without a zero in front are the numeral of what they denote.** The induction is from
the right, where the last digit is the remainder. -/
theorem write_value {ds : List Char} (hdigits : ∀ c ∈ ds, c.isDigit = true) (hne : ds ≠ [])
    (hlead : ds.head? = some '0' → ds = ['0']) : write (value ds) = ds := by
  induction ds using List.reverseRecOn with
  | nil => exact absurd rfl hne
  | append_singleton ds d ih =>
    have hd : d.isDigit = true := hdigits d (by simp)
    have hsmall := digitValue_lt hd
    rw [value_append_singleton]
    by_cases hds : ds = []
    · subst hds
      have hzero : value [] = 0 := rfl
      rw [hzero, Nat.mul_zero, Nat.zero_add, write_eq, if_pos hsmall, ofDigit_digitValue hd]
      rfl
    · -- what starts with a zero is a zero alone, so the digits before the last one do not
      have hhead : ds.head? ≠ some '0' := by
        intro hzero
        have hall : ds ++ [d] = ['0'] := hlead (by rw [List.head?_append, hzero, Option.some_or])
        exact hds (List.append_inj_left' (show ds ++ [d] = [] ++ ['0'] from hall) rfl)
      have hbefore : write (value ds) = ds :=
        ih (fun c hc => hdigits c (List.mem_append_left _ hc)) hds fun h => absurd h hhead
      have hpos : value ds ≠ 0 := by
        intro hzero
        rw [hzero, write_zero] at hbefore
        exact hhead (by rw [← hbefore]; rfl)
      have hbig : ¬10 * value ds + digitValue d < 10 := by omega
      have hquotient : (10 * value ds + digitValue d) / 10 = value ds := by omega
      have hremainder : (10 * value ds + digitValue d) % 10 = digitValue d := by omega
      rw [write_eq, if_neg hbig, hquotient, hremainder, hbefore, ofDigit_digitValue hd]

end Digits

/-! ## Integers -/

namespace Signed

variable {cs : List Char} {i : Int}

theorem readNatural?_write (n : Nat) : readNatural? (Digits.write n) = some n := by
  rw [readNatural?, if_neg (Digits.write_ne_nil n),
    if_pos (List.all_eq_true.2 (Digits.write_isDigit n)), Digits.value_write]

theorem readNatural?_eq_some {n : Nat} (h : readNatural? cs = some n) :
    cs ≠ [] ∧ (∀ c ∈ cs, c.isDigit = true) ∧ Digits.value cs = n := by
  unfold readNatural? at h
  split at h
  · exact absurd h (by simp)
  · next hne =>
    split at h
    · next hdigits => exact ⟨hne, List.all_eq_true.1 hdigits, Option.some.inj h⟩
    · exact absurd h (by simp)

/-- A numeral has no sign of its own. -/
theorem read?_digits {cs : List Char} (h : ∀ c ∈ cs, c.isDigit = true) :
    read? cs = (readNatural? cs).map fun n => (n : Int) := by
  unfold read?
  split
  · next ds => exact absurd (h '-' List.mem_cons_self) (by decide)
  · next ds => exact absurd (h '+' List.mem_cons_self) (by decide)
  · rfl

theorem read?_write (i : Int) : read? (write i) = some i := by
  cases i with
  | ofNat n =>
    rw [write, read?_digits (Digits.write_isDigit n), readNatural?_write]
    rfl
  | negSucc n =>
    show (readNatural? (Digits.write (n + 1))).map (fun n => -(n : Int)) = some (Int.negSucc n)
    rw [readNatural?_write]
    rfl

theorem fits64_toInt (i : Int64) : Fits64 i.toInt := by
  have hlower := i.le_toInt
  have hupper := i.toInt_lt
  unfold Fits64
  omega

theorem read64?_write (i : Int64) : read64? (write i.toInt) = some i := by
  unfold read64?
  rw [read?_write, Option.bind_some, if_pos (fits64_toInt i), Int64.ofInt_toInt]

/-- What is read is a natural number, behind a sign or without one. -/
theorem read?_cases (h : read? cs = some i) :
    (∃ (ds : List Char) (n : Nat), cs = '-' :: ds ∧ readNatural? ds = some n ∧ i = -(n : Int)) ∨
      (∃ ds : List Char, cs = '+' :: ds) ∨ ∃ n : Nat, readNatural? cs = some n ∧ i = n := by
  unfold read? at h
  split at h
  · next ds =>
    obtain ⟨_, hcast, rfl⟩ := Option.map_eq_some_iff.1 h
    obtain ⟨n, hread, hn⟩ := Option.bind_eq_some_iff.1 hcast
    exact Or.inl ⟨ds, n, rfl, hread, congrArg _ (Option.some.inj hn).symm⟩
  · next ds => exact Or.inr (Or.inl ⟨ds, rfl⟩)
  · obtain ⟨_, hcast, rfl⟩ := Option.map_eq_some_iff.1 h
    obtain ⟨n, hread, hn⟩ := Option.bind_eq_some_iff.1 hcast
    exact Or.inr (Or.inr ⟨n, hread, (Option.some.inj hn).symm⟩)

/-- The strict reader adds the range and nothing else. -/
theorem read?_of_read64? {i : Int64} (h : read64? cs = some i) : read? cs = some i.toInt := by
  obtain ⟨j, hread, hj⟩ := Option.bind_eq_some_iff.1 h
  split at hj
  · next hfits =>
    obtain ⟨hlower, hupper⟩ := hfits
    rw [hread, ← Option.some.inj hj, Int64.toInt_ofInt_of_le hlower hupper]
  · exact absurd hj (by simp)

theorem colon_not_mem_write (i : Int) : ':' ∉ write i := by
  have hdigits : ∀ n, ':' ∉ Digits.write n := fun n hmem =>
    absurd (Digits.write_isDigit n ':' hmem) (by decide)
  cases i with
  | ofNat n => exact hdigits n
  | negSucc n =>
    intro hmem
    rcases List.mem_cons.1 hmem with hcolon | hmem
    · exact absurd hcolon (by decide)
    · exact hdigits (n + 1) hmem

/-- The numerals that are read but never written. -/
inductive IsLoose : List Char → Prop where
  | plus (ds : List Char) : IsLoose ('+' :: ds)
  | leadingZero {ds : List Char} (hne : ds ≠ []) : IsLoose ('0' :: ds)
  | minusZero (ds : List Char) : IsLoose ('-' :: '0' :: ds)

/-- Digits in which a zero in front stands alone are written again. -/
theorem write_of_readNatural? {n : Nat} (h : readNatural? cs = some n)
    (hlead : cs.head? = some '0' → cs = ['0']) : Digits.write n = cs := by
  obtain ⟨hne, hdigits, hvalue⟩ := readNatural?_eq_some h
  rw [← hvalue, Digits.write_value hdigits hne hlead]

/-- Behind a minus sign they are the numeral of a number below zero. -/
theorem write_neg_of_readNatural? {n : Nat} (h : readNatural? cs = some n)
    (hlead : cs.head? ≠ some '0') : write (-(n : Int)) = '-' :: cs := by
  have hwrite : Digits.write n = cs := write_of_readNatural? h fun hzero => absurd hzero hlead
  cases n with
  | zero =>
    rw [Digits.write_zero] at hwrite
    exact absurd (by rw [← hwrite]; rfl) hlead
  | succ n =>
    show '-' :: Digits.write (n + 1) = '-' :: cs
    rw [hwrite]

/-- A numeral that is not loose is written again. -/
theorem write_of_read? (h : read? cs = some i) (hloose : ¬IsLoose cs) : write i = cs := by
  rcases read?_cases h with ⟨ds, n, rfl, hread, rfl⟩ | ⟨ds, rfl⟩ | ⟨n, hread, rfl⟩
  · refine write_neg_of_readNatural? hread fun hzero => hloose ?_
    obtain ⟨es, rfl⟩ := List.head?_eq_some_iff.1 hzero
    exact .minusZero es
  · exact absurd (.plus ds) hloose
  · refine write_of_readNatural? hread fun hzero => ?_
    obtain ⟨es, rfl⟩ := List.head?_eq_some_iff.1 hzero
    by_cases hes : es = []
    · rw [hes]
    · exact absurd (.leadingZero hes) hloose

/-- Nothing that is written is loose. -/
theorem not_isLoose_write (i : Int) : ¬IsLoose (write i) := by
  intro h
  cases i with
  | ofNat n =>
    have hdigits := Digits.write_isDigit n
    by_cases hn : n = 0
    · rw [write, hn, Digits.write_zero] at h
      cases h with
      | leadingZero hne => exact hne rfl
    · have hhead := Digits.head?_write_ne_zero hn
      rw [write] at h
      generalize Digits.write n = cs at h hhead hdigits
      cases h with
      | plus ds => exact absurd (hdigits '+' List.mem_cons_self) (by decide)
      | leadingZero _ => exact hhead rfl
      | minusZero ds => exact absurd (hdigits '-' List.mem_cons_self) (by decide)
  | negSucc n =>
    have hhead := Digits.head?_write_ne_zero (Nat.succ_ne_zero n)
    rw [write] at h
    generalize Digits.write (n + 1) = cs at h hhead
    cases h with
    | minusZero ds => exact hhead rfl

/-- **Of the numerals that are read as an integer, all but the loose ones are its own.** -/
theorem write_eq_iff (h : read? cs = some i) : write i = cs ↔ ¬IsLoose cs := by
  constructor
  · intro hwrite
    rw [← hwrite]
    exact not_isLoose_write i
  · exact write_of_read? h

end Signed

end KeywordRunner
