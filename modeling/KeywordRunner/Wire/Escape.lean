/-!
# Wire.Escape — payloads on one line

A payload travels on a line of its own, so a newline inside it is written `%n`, and `%` itself
`%e`. Escaping and unescaping each take two passes over the text, and the order matters: undoing
`%e` first would turn an escaped `%n` into a newline. `replacePair_cons_cons` is the rule of one
pass of the latter.
-/

namespace KeywordRunner.Wire

/-- Every occurrence of the character `c` replaced by a text. -/
def replaceChar (c : Char) (text : List Char) (cs : List Char) : List Char :=
  cs.flatMap fun d => if d = c then text else [d]

/-- `replacePair` behind the characters in `acc`, which come latest first. -/
def replacePairOnto (a b c : Char) (acc : List Char) : List Char → List Char
  | [] => acc.reverse
  | [x] => (x :: acc).reverse
  | x :: y :: rest =>
    if x = a ∧ y = b then replacePairOnto a b c (c :: acc) rest
    else replacePairOnto a b c (x :: acc) (y :: rest)

/-- Every occurrence of the two characters `a`, `b` in a row replaced by the character `c`, from
left to right. -/
def replacePair (a b c : Char) (cs : List Char) : List Char := replacePairOnto a b c [] cs

def escapeChars (cs : List Char) : List Char :=
  replaceChar '\n' ['%', 'n'] (replaceChar '%' ['%', 'e'] cs)

def unescapeChars (cs : List Char) : List Char :=
  replacePair '%' 'e' '%' (replacePair '%' 'n' '\n' cs)

def escape (s : String) : String := String.ofList (escapeChars s.toList)

def unescape (s : String) : String := String.ofList (unescapeChars s.toList)

/-! ### Laws -/

theorem replacePairOnto_eq_append (a b c : Char) (acc cs : List Char) :
    replacePairOnto a b c acc cs = acc.reverse ++ replacePair a b c cs := by
  induction h : cs.length using Nat.strongRecOn generalizing acc cs with
  | _ n ih =>
    match cs with
    | [] => simp [replacePair, replacePairOnto]
    | [x] => simp [replacePair, replacePairOnto]
    | x :: y :: rest =>
      have hrest : rest.length < n := by simp only [List.length_cons] at h; omega
      have htail : (y :: rest).length < n := by simp only [List.length_cons] at h ⊢; omega
      simp only [replacePair, replacePairOnto]
      split
      · rw [ih _ hrest _ _ rfl, ih _ hrest [c] _ rfl]
        simp
      · rw [ih _ htail _ _ rfl, ih _ htail [x] _ rfl]
        simp

/-- A pair at the start is replaced as a whole; otherwise the first character stays. -/
theorem replacePair_cons_cons (a b c x y : Char) (cs : List Char) :
    replacePair a b c (x :: y :: cs) =
      if x = a ∧ y = b then c :: replacePair a b c cs else x :: replacePair a b c (y :: cs) := by
  rw [replacePair, replacePairOnto]
  split <;> simp [replacePairOnto_eq_append]

end KeywordRunner.Wire
