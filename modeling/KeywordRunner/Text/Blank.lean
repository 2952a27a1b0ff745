/-!
# Text.Blank — blank characters and trimming

The characters with the Unicode property White_Space, and texts without them at their ends.
-/

namespace KeywordRunner.Text

/-- Whether a character has the property White_Space. -/
def isBlank (c : Char) : Bool :=
  let n := c.toNat
  (9 ≤ n && n ≤ 13) || n == 0x20 || n == 0x85 || n == 0xA0 || n == 0x1680 ||
    (0x2000 ≤ n && n ≤ 0x200A) || n == 0x2028 || n == 0x2029 || n == 0x202F || n == 0x205F ||
    n == 0x3000

/-- Without the leading characters that satisfy `p`. -/
def dropStart (p : Char → Bool) (cs : List Char) : List Char := cs.dropWhile p

/-- Without the trailing characters that satisfy `p`. Nothing is rebuilt where there are none. -/
def dropEnd (p : Char → Bool) (cs : List Char) : List Char :=
  if cs.getLast?.any p then (cs.reverse.dropWhile p).reverse else cs

def trimChars (cs : List Char) : List Char := dropEnd isBlank (dropStart isBlank cs)

def trim (s : String) : String := String.ofList (trimChars s.toList)

def isBlankText (s : String) : Bool := s.toList.all isBlank

/-! ### Laws -/

/-- Trailing characters are leading ones, seen from the end. -/
theorem dropEnd_eq (p : Char → Bool) (cs : List Char) :
    dropEnd p cs = (cs.reverse.dropWhile p).reverse := by
  unfold dropEnd
  split
  · rfl
  · next h =>
    rw [← List.head?_reverse] at h
    cases hr : cs.reverse with
    | nil => simp_all
    | cons c rest =>
      have hc : p c = false := by simpa [hr] using h
      rw [List.dropWhile_cons_of_neg (by simp [hc]), ← hr, List.reverse_reverse]

theorem dropEnd_append_of_all (p : Char → Bool) (cs ds : List Char) (h : ds.all p = true) :
    dropEnd p (cs ++ ds) = dropEnd p cs := by
  have h' : ∀ c ∈ ds.reverse, p c = true := by simpa using h
  simp [dropEnd_eq, List.dropWhile_append_of_pos h']

/-- What ends in a character that stays is left alone. -/
theorem dropEnd_of_last (p : Char → Bool) (cs : List Char) {c : Char} (h : p c = false) :
    dropEnd p (cs ++ [c]) = cs ++ [c] := by
  rw [dropEnd, List.getLast?_concat, Option.any_some, h, if_neg Bool.false_ne_true]

/-- What begins and ends in characters that stay is left alone. -/
theorem trimChars_of_ends {c d : Char} (cs : List Char) (hc : isBlank c = false)
    (hd : isBlank d = false) : trimChars (c :: (cs ++ [d])) = c :: (cs ++ [d]) := by
  have hstart : dropStart isBlank (c :: (cs ++ [d])) = c :: (cs ++ [d]) :=
    List.dropWhile_cons_of_neg (by simp [hc])
  rw [trimChars, hstart, ← List.cons_append, dropEnd_of_last _ _ hd]

end KeywordRunner.Text
