/-!
# Numeral.Digits — decimal digit sequences

A natural number and its decimal numeral. `value_append_singleton` is the rule by which a
numeral denotes a number, `value_write` says that the numeral of a number denotes it,
`write_isDigit` that it holds digits only, and `write_ne_nil` that it is never empty. Every other
numeral of the library is built from these.
-/

namespace KeywordRunner.Digits

def ofDigit (d : Nat) : Char := Char.ofNat (48 + d)

def digitValue (c : Char) : Nat := c.toNat - 48

/-- The decimal numeral of a number, without leading zeros, before other characters. -/
def writeBefore (rest : List Char) (n : Nat) : List Char :=
  if n < 10 then ofDigit n :: rest else writeBefore (ofDigit (n % 10) :: rest) (n / 10)
termination_by n
decreasing_by omega

/-- The decimal numeral of a number, without leading zeros. -/
def write (n : Nat) : List Char := writeBefore [] n

def text (n : Nat) : String := String.ofList (write n)

/-- A run of digits: the number it denotes, and ten to the power of its length. -/
structure Run where
  value : Nat
  scale : Nat

namespace Run

def empty : Run := ⟨0, 1⟩

def push (r : Run) (c : Char) : Run := ⟨10 * r.value + digitValue c, 10 * r.scale⟩

def append (r s : Run) : Run := ⟨r.value * s.scale + s.value, r.scale * s.scale⟩

def concat (runs : List Run) : Run := runs.foldl append empty

/-- Cuts digits into runs of fifteen behind the finished runs in `done`, the latest first, and the
unfinished run `r`. -/
def cut (done : List Run) (r : Run) : List Char → List Run
  | [] => (r :: done).reverse
  | c :: cs =>
    if r.scale < 1000000000000000 then cut done (r.push c) cs
    else cut (r :: done) (empty.push c) cs

/-- Joins neighbours two by two, behind the joined runs in `done`, the latest first. -/
def joinPairs (done : List Run) : List Run → List Run
  | r :: s :: runs => joinPairs (r.append s :: done) runs
  | [r] => (r :: done).reverse
  | [] => done.reverse

/-- The run that runs make up. Each round halves their number, so both sides of every product have
about the same length, and a long numeral costs few operations on large numbers. The budget allows
for as many rounds as there are runs, which is more than they need. -/
def join : List Run → List Run → Run
  | _ :: budget, r :: s :: runs => join budget (joinPairs [] (r :: s :: runs))
  | _, runs => concat runs

end Run

/-- The number that a digit sequence denotes; the empty sequence denotes zero. -/
def value (ds : List Char) : Nat :=
  let runs := Run.cut [] .empty ds
  (Run.join runs runs).value

/-- The leading digits of a text, and what follows them. -/
def span (cs : List Char) : List Char × List Char :=
  (cs.takeWhile Char.isDigit, cs.dropWhile Char.isDigit)

/-- The least number of digits, from `c` up, that a numeral of `n` can have. -/
def countFrom (n c : Nat) : Nat :=
  if n < Nat.pow 10 c then c else countFrom n (c + 1)
termination_by n - c
decreasing_by
  have : c < Nat.pow 10 c := Nat.lt_pow_self (by decide)
  omega

/-- The number of digits in the numeral of `n`. A number with `b` bits after the first one has more
than `3 * b / 10` digits, since `1000 ≤ 2 ^ 10`, and hardly more. -/
def count (n : Nat) : Nat := countFrom n (n.log2 * 3 / 10 + 1)

/-! ### Laws -/

theorem toNat_ofDigit {d : Nat} (h : d < 10) : (ofDigit d).toNat = 48 + d := by
  have : ∀ d : Fin 10, (ofDigit d.val).toNat = 48 + d.val := by decide
  exact this ⟨d, h⟩

theorem isDigit_ofDigit {d : Nat} (h : d < 10) : (ofDigit d).isDigit = true := by
  have : ∀ d : Fin 10, (ofDigit d.val).isDigit = true := by decide
  exact this ⟨d, h⟩

theorem digitValue_ofDigit {d : Nat} (h : d < 10) : digitValue (ofDigit d) = d := by
  simp [digitValue, toNat_ofDigit h]

namespace Run

theorem append_empty (r : Run) : r.append empty = r := by
  simp [empty, append]

theorem append_assoc (r s t : Run) : (r.append s).append t = r.append (s.append t) := by
  simp only [append, mk.injEq]
  grind

theorem append_push (r s : Run) (c : Char) : r.append (s.push c) = (r.append s).push c := by
  simp only [append, push, mk.injEq]
  grind

/-- Joining neighbours changes nothing but the number of runs. -/
theorem foldl_joinPairs (r : Run) (done runs : List Run) :
    (joinPairs done runs).foldl append r = (done.reverse ++ runs).foldl append r := by
  fun_induction joinPairs done runs with
  | case1 done s t runs ih => simp [ih, append_assoc]
  | case2 done s => simp
  | case3 done => simp

theorem join_eq_concat (budget runs : List Run) : join budget runs = concat runs := by
  fun_induction join budget runs with
  | case1 _ budget r s runs ih => rw [ih, concat, foldl_joinPairs]; rfl
  | case2 => rfl

theorem concat_append_singleton (runs : List Run) (r : Run) :
    concat (runs ++ [r]) = (concat runs).append r := by
  simp [concat]

/-- The runs that digits are cut into make up the digits. -/
theorem concat_cut (done : List Run) (r : Run) (ds : List Char) :
    concat (cut done r ds) = ds.foldl push (concat (done.reverse ++ [r])) := by
  induction ds generalizing done r with
  | nil => simp [cut]
  | cons c cs ih =>
    rw [cut]
    split
    · simp only [ih, concat_append_singleton, append_push, List.foldl_cons]
    · simp only [ih, concat_append_singleton, append_push, append_empty, List.foldl_cons,
        List.reverse_cons]

theorem value_foldl_push (r : Run) (ds : List Char) :
    (ds.foldl push r).value = ds.foldl (fun acc c => 10 * acc + digitValue c) r.value := by
  induction ds generalizing r with
  | nil => rfl
  | cons c cs ih => exact ih (r.push c)

end Run

/-- Each digit counts ten times as much as the next. -/
theorem value_eq_foldl (ds : List Char) :
    value ds = ds.foldl (fun acc c => 10 * acc + digitValue c) 0 := by
  simp only [value, Run.join_eq_concat, Run.concat_cut, Run.value_foldl_push]
  rfl

theorem value_append_singleton (ds : List Char) (c : Char) :
    value (ds ++ [c]) = 10 * value ds + digitValue c := by
  simp [value_eq_foldl]

theorem writeBefore_eq_append (rest : List Char) (n : Nat) :
    writeBefore rest n = write n ++ rest := by
  induction n using Nat.strongRecOn generalizing rest with
  | _ n ih =>
    rw [write, writeBefore.eq_def rest n, writeBefore.eq_def [] n]
    split
    · rfl
    · rw [ih (n / 10) (by omega), ih (n / 10) (by omega) [_], List.append_assoc]
      rfl

/-- The last digit of a numeral is the remainder, and the others are the numeral of the quotient. -/
theorem write_eq (n : Nat) :
    write n = if n < 10 then [ofDigit n] else write (n / 10) ++ [ofDigit (n % 10)] := by
  rw [write, writeBefore]
  split
  · rfl
  · exact writeBefore_eq_append _ _

/-- A numeral denotes the number it was written for. -/
theorem value_write (n : Nat) : value (write n) = n := by
  induction n using Nat.strongRecOn with
  | _ n ih =>
    rw [write_eq]
    split
    · next h => simp [value_eq_foldl, digitValue_ofDigit h]
    · next h =>
      rw [value_append_singleton, ih (n / 10) (by omega), digitValue_ofDigit (by omega)]
      omega

theorem write_ne_nil (n : Nat) : write n ≠ [] := by
  rw [write_eq]
  split <;> simp

theorem write_isDigit (n : Nat) : ∀ c ∈ write n, c.isDigit = true := by
  induction n using Nat.strongRecOn with
  | _ n ih =>
    rw [write_eq]
    split
    · next h => simp [isDigit_ofDigit h]
    · next h =>
      intro c hc
      rcases List.mem_append.1 hc with hc | hc
      · exact ih (n / 10) (by omega) c hc
      · rw [List.mem_singleton.1 hc]
        exact isDigit_ofDigit (by omega)

end KeywordRunner.Digits
