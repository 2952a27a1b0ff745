import KeywordRunner.Json.Printer
import KeywordRunner.Json.Reader
import KeywordRunner.Proofs.Numeral.Canonical
import Mathlib

/-!
# Proofs.Json.Scalars — strings and numbers come back from their text

Each law is about a text with anything behind it, so that it can be used inside a document: what
was written is read, and the rest is left. A string ends at its closing quote, and of the many ways
to spell it (`StringText`) the printer takes one. A numeral has no end of its own, so what follows
must not go on with it: `Ends`.

* **`readString_text`** — every string comes back, however it is spelt.
* **`readNumeral?_append`** — a numeral is read in the same way with a rest behind it.
* **`readNumber_write`** — every integer comes back, and every binary64 number that `ReadsBack`.
-/

namespace KeywordRunner.Json

variable {ε : Type}

/-! ## Strings -/

/-- The letters that make an escape with a backslash, each with what it stands for. -/
def shortEscapes : List (Char × Char) :=
  [('"', '"'), ('\\', '\\'), ('/', '/'), ('b', '\x08'), ('f', '\x0c'), ('n', '\n'), ('r', '\r'),
    ('t', '\t')]

/-- A digit below sixteen, in either case. -/
def IsHexDigit (d : Nat) (c : Char) : Prop :=
  d < 16 ∧ (c = Text.hexDigit d ∨ c = (Text.hexDigit d).toUpper)

/-- Four hexadecimal digits that denote `n`. -/
def IsHex4 (n : Nat) (cs : List Char) : Prop :=
  List.Forall₂ IsHexDigit [n / 0x1000, n / 0x100 % 16, n / 0x10 % 16, n % 16] cs

/-- The spellings of one character in a string: itself, a short escape, the number of its code
point, or the two surrogates that stand for a code point beyond four digits. -/
inductive CharText : Char → List Char → Prop where
  | plain {c : Char} (hquote : c ≠ '"') (hslash : c ≠ '\\') (hcontrol : 0x20 ≤ c.toNat) :
      CharText c [c]
  | short {c e : Char} (h : (e, c) ∈ shortEscapes) : CharText c ['\\', e]
  | numeric {c : Char} {digits : List Char} (h : IsHex4 c.toNat digits) :
      CharText c ('\\' :: 'u' :: digits)
  | surrogates {c : Char} {high low : Nat} {digits digits' : List Char}
      (hhigh : 0xD800 ≤ high ∧ high ≤ 0xDBFF) (hlow : 0xDC00 ≤ low ∧ low ≤ 0xDFFF)
      (hc : c.toNat = 0x10000 + (high - 0xD800) * 0x400 + (low - 0xDC00))
      (h : IsHex4 high digits) (h' : IsHex4 low digits') :
      CharText c ('\\' :: 'u' :: (digits ++ '\\' :: 'u' :: digits'))

/-- A spelling of a string: a spelling of each character, between quotes. -/
def StringText (s : String) (text : List Char) : Prop :=
  ∃ pieces, List.Forall₂ CharText s.toList pieces ∧ text = '"' :: (pieces.flatten ++ ['"'])

theorem hexValue?_hexDigit {d : Nat} (h : d < 16) : Text.hexValue? (Text.hexDigit d) = some d := by
  have key : ∀ d : Fin 16, Text.hexValue? (Text.hexDigit d.val) = some d.val := by decide
  exact key ⟨d, h⟩

theorem hexValue?_of_isHexDigit {d : Nat} {c : Char} (h : IsHexDigit d c) :
    Text.hexValue? c = some d := by
  have hupper : ∀ d : Fin 16,
      Text.hexValue? (Text.hexDigit d.val).toUpper = some d.val := by decide
  obtain ⟨hd, rfl | rfl⟩ := h
  · exact hexValue?_hexDigit hd
  · exact hupper ⟨d, hd⟩

theorem readHex4?_text {n : Nat} {digits : List Char} (h : IsHex4 n digits) (rest : List Char) :
    readHex4? (digits ++ rest) = some (n, rest) := by
  unfold IsHex4 at h
  rcases h with _ | ⟨ha, _ | ⟨hb, _ | ⟨hc, _ | ⟨hd, _ | _⟩⟩⟩⟩
  have hvalue : ((n / 0x1000 * 16 + n / 0x100 % 16) * 16 + n / 0x10 % 16) * 16 + n % 16 = n := by
    omega
  simp only [List.cons_append, List.nil_append, readHex4?, hexValue?_of_isHexDigit ha,
    hexValue?_of_isHexDigit hb, hexValue?_of_isHexDigit hc, hexValue?_of_isHexDigit hd,
    Option.bind_eq_bind, Option.bind_some, Option.pure_def, hvalue]

/-- No character is a surrogate. -/
theorem toNat_lt_or_lt (c : Char) : c.toNat < 0xD800 ∨ 0xDFFF < c.toNat ∧ c.toNat < 0x110000 := by
  have hvalid := c.valid
  simp only [UInt32.isValidChar, Nat.isValidChar] at hvalid
  rw [← Char.toNat_val]
  omega

theorem readUnicode?_numeric {c : Char} {digits : List Char} (h : IsHex4 c.toNat digits)
    (rest : List Char) : readUnicode? (digits ++ rest) = some (c, rest) := by
  have hvalid := toNat_lt_or_lt c
  unfold readUnicode?
  rw [readHex4?_text h]
  simp only [Option.bind_eq_bind, Option.bind_some]
  rw [if_neg (by omega), if_pos (by omega), Char.ofNat_toNat]
  rfl

theorem readUnicode?_surrogates {c : Char} {high low : Nat} {digits digits' : List Char}
    (hhigh : 0xD800 ≤ high ∧ high ≤ 0xDBFF) (hlow : 0xDC00 ≤ low ∧ low ≤ 0xDFFF)
    (hc : c.toNat = 0x10000 + (high - 0xD800) * 0x400 + (low - 0xDC00))
    (h : IsHex4 high digits) (h' : IsHex4 low digits') (rest : List Char) :
    readUnicode? (digits ++ '\\' :: 'u' :: (digits' ++ rest)) = some (c, rest) := by
  unfold readUnicode?
  rw [readHex4?_text h]
  simp only [Option.bind_eq_bind, Option.bind_some]
  rw [if_neg (by omega), if_neg (by omega)]
  simp only [readHex4?_text h', Option.bind_some]
  rw [if_neg (by omega), ← hc, Char.ofNat_toNat]
  rfl

theorem shortEscape?_of_mem {c e : Char} (h : (e, c) ∈ shortEscapes) :
    e ≠ 'u' ∧ shortEscape? e = some c := by
  simp only [shortEscapes, List.mem_cons, Prod.mk.injEq, List.not_mem_nil, or_false] at h
  rcases h with ⟨rfl, rfl⟩ | ⟨rfl, rfl⟩ | ⟨rfl, rfl⟩ | ⟨rfl, rfl⟩ | ⟨rfl, rfl⟩ | ⟨rfl, rfl⟩ |
    ⟨rfl, rfl⟩ | ⟨rfl, rfl⟩ <;> exact ⟨by decide, rfl⟩

theorem readChars_short {c d : Char} (hc : c ≠ 'u') (h : shortEscape? c = some d)
    (acc rest : List Char) : readChars acc ('\\' :: c :: rest) = readChars (d :: acc) rest := by
  rw [readChars.eq_4 acc c rest hc, h]

theorem readChars_unicode {c : Char} {cs rest : List Char} (h : readUnicode? cs = some (c, rest))
    (acc : List Char) : readChars acc ('\\' :: 'u' :: cs) = readChars (c :: acc) rest := by
  rw [readChars.eq_3]
  split
  · next d rest' hread =>
    rw [h] at hread
    cases hread
    rfl
  · next hread =>
    rw [h] at hread
    exact absurd hread (by simp)

theorem readChars_plain {c : Char} (hquote : c ≠ '"') (hslash : c ≠ '\\')
    (hcontrol : ¬c.toNat < 0x20) (acc rest : List Char) :
    readChars acc (c :: rest) = readChars (c :: acc) rest := by
  rw [readChars.eq_5 acc c rest hquote (fun _ h => absurd h hslash) fun _ _ h => absurd h hslash,
    if_neg fun h => h.elim hslash hcontrol]

theorem readChars_charText {c : Char} {piece : List Char} (h : CharText c piece)
    (acc rest : List Char) : readChars acc (piece ++ rest) = readChars (c :: acc) rest := by
  cases h with
  | plain hquote hslash hcontrol =>
    exact readChars_plain hquote hslash (Nat.not_lt.2 hcontrol) acc rest
  | short h =>
    obtain ⟨hu, hshort⟩ := shortEscape?_of_mem h
    exact readChars_short hu hshort acc rest
  | numeric h => exact readChars_unicode (readUnicode?_numeric h rest) acc
  | surrogates hhigh hlow hc h h' =>
    have hread := readUnicode?_surrogates hhigh hlow hc h h' rest
    rw [List.cons_append, List.cons_append, List.append_assoc, List.cons_append, List.cons_append]
    exact readChars_unicode hread acc

/-- **A string is read from each of its spellings.** -/
theorem readString_text {s : String} {text : List Char} (h : StringText s text) (rest : List Char) :
    readString (ε := ε) (text ++ rest) = .ok (s, rest) := by
  obtain ⟨pieces, hpieces, rfl⟩ := h
  have hchars : ∀ acc, readChars acc (pieces.flatten ++ '"' :: rest)
      = some (acc.reverse ++ s.toList, rest) := by
    generalize s.toList = chars at hpieces ⊢
    induction hpieces with
    | nil =>
      intro acc
      rw [List.append_nil]
      exact readChars.eq_2 acc rest
    | cons hpiece _ ih =>
      intro acc
      rw [List.flatten_cons, List.append_assoc, readChars_charText hpiece, ih, List.reverse_cons,
        List.append_assoc, List.singleton_append]
  have hquote : skipSpace ('"' :: (pieces.flatten ++ ['"']) ++ rest)
      = '"' :: (pieces.flatten ++ '"' :: rest) := by
    rw [List.cons_append, List.append_assoc]
    rfl
  unfold readString
  rw [hquote]
  simp only [hchars []]
  simp only [List.reverse_nil, List.nil_append, String.ofList_toList]

/-- The spelling that is written is one of them. -/
theorem stringText_write (s : String) : StringText s (writeString s) := by
  refine ⟨s.toList.map escapedChar, ?_, by rw [writeString, List.flatMap]⟩
  rw [List.forall₂_map_right_iff, List.forall₂_same]
  intro c _
  unfold escapedChar
  split_ifs with hquote hslash hb hf hn hr ht hcontrol
  · subst hquote
    exact .short (by decide)
  · subst hslash
    exact .short (by decide)
  · subst hb
    exact .short (by decide)
  · subst hf
    exact .short (by decide)
  · subst hn
    exact .short (by decide)
  · subst hr
    exact .short (by decide)
  · subst ht
    exact .short (by decide)
  · refine .numeric ?_
    have hthousands : c.toNat / 0x1000 = 0 := by omega
    have hhundreds : c.toNat / 0x100 % 16 = 0 := by omega
    have htens : c.toNat / 0x10 % 16 = c.toNat / 16 := by omega
    unfold IsHex4
    rw [hthousands, hhundreds, htens]
    refine .cons ⟨by omega, .inl rfl⟩ (.cons ⟨by omega, .inl rfl⟩ (.cons ⟨by omega, .inl rfl⟩
      (.cons ⟨by omega, .inl rfl⟩ .nil)))
  · exact .plain hquote hslash (by omega)

theorem writeString_append (s : String) (rest : List Char) :
    writeString s ++ rest = '"' :: (s.toList.flatMap escapedChar ++ '"' :: rest) := by
  unfold writeString
  rw [List.cons_append, List.append_assoc, List.singleton_append]

theorem readString_write (s : String) (rest : List Char) :
    readString (ε := ε) (writeString s ++ rest) = .ok (s, rest) :=
  readString_text (stringText_write s) rest

/-! ## Numerals and what follows them -/

/-- What follows does not go on with a numeral. -/
def Ends (rest : List Char) : Prop :=
  ∀ c ∈ rest.head?, c.isDigit = false ∧ c ≠ '.' ∧ c ≠ 'e' ∧ c ≠ 'E'

theorem ends_cons {c : Char} {rest : List Char}
    (h : c.isDigit = false ∧ c ≠ '.' ∧ c ≠ 'e' ∧ c ≠ 'E') : Ends (c :: rest) := by
  intro d hd
  cases hd
  exact h

theorem ends_comma (rest : List Char) : Ends (',' :: rest) := ends_cons (by decide)

theorem ends_bracket (rest : List Char) : Ends (']' :: rest) := ends_cons (by decide)

theorem ends_brace (rest : List Char) : Ends ('\x7d' :: rest) := ends_cons (by decide)

variable {cs rest tail : List Char}

theorem span_of_ends (h : Ends rest) : Digits.span rest = ([], rest) := by
  cases rest with
  | nil => rfl
  | cons c rest =>
    obtain ⟨hdigit, _⟩ := h c rfl
    simp [Digits.span, hdigit]

theorem span_append_of_ends (cs : List Char) (h : Ends rest) :
    Digits.span (cs ++ rest) = ((Digits.span cs).1, (Digits.span cs).2 ++ rest) := by
  induction cs with
  | nil => exact span_of_ends h
  | cons c cs ih =>
    obtain ⟨hfirst, hsecond⟩ := Prod.mk.inj ih
    unfold Digits.span
    rw [List.cons_append]
    by_cases hdigit : c.isDigit = true
    · rw [List.takeWhile_cons_of_pos hdigit, List.dropWhile_cons_of_pos hdigit,
        List.takeWhile_cons_of_pos hdigit, List.dropWhile_cons_of_pos hdigit, hfirst, hsecond]
      rfl
    · rw [List.takeWhile_cons_of_neg hdigit, List.dropWhile_cons_of_neg hdigit,
        List.takeWhile_cons_of_neg hdigit, List.dropWhile_cons_of_neg hdigit, List.cons_append]

theorem readFraction?_point (cs : List Char) :
    readFraction? ('.' :: cs) =
      if (Digits.span cs).1 = [] then none
      else some (some (Digits.span cs).1, (Digits.span cs).2) :=
  rfl

theorem readFraction?_of_ne {c : Char} (h : c ≠ '.') (cs : List Char) :
    readFraction? (c :: cs) = some (none, c :: cs) := by
  unfold readFraction?
  split
  · next heq =>
    cases heq
    exact absurd rfl h
  · rfl

theorem readFraction?_of_ends (h : Ends rest) : readFraction? rest = some (none, rest) := by
  cases rest with
  | nil => rfl
  | cons c rest => exact readFraction?_of_ne (h c rfl).2.1 rest

theorem readFraction?_append {fraction : Option (List Char)}
    (h : readFraction? cs = some (fraction, tail)) (hends : Ends rest) :
    readFraction? (cs ++ rest) = some (fraction, tail ++ rest) := by
  cases cs with
  | nil =>
    cases h
    exact readFraction?_of_ends hends
  | cons c cs =>
    by_cases hc : c = '.'
    · subst hc
      rw [readFraction?_point] at h
      rw [List.cons_append, readFraction?_point, span_append_of_ends cs hends]
      split at h
      · exact absurd h (by simp)
      · next hdigits =>
        cases h
        exact if_neg hdigits
    · rw [readFraction?_of_ne hc] at h
      cases h
      exact readFraction?_of_ne hc _

theorem readExponent?_of_ne {c : Char} (h : ¬(c = 'e' ∨ c = 'E')) (cs : List Char) :
    readExponent? (c :: cs) = some (none, c :: cs) :=
  if_neg h

theorem readExponent?_of_ends (h : Ends rest) : readExponent? rest = some (none, rest) := by
  cases rest with
  | nil => rfl
  | cons c rest =>
    obtain ⟨_, _, hlower, hupper⟩ := h c rfl
    exact readExponent?_of_ne (fun hc => hc.elim hlower hupper) rest

/-- The sign is read in the same way, unless there is nothing that it could be the sign of. -/
theorem splitSign_append (h : cs ≠ []) (rest : List Char) :
    Literal.splitSign (cs ++ rest)
      = ((Literal.splitSign cs).1, (Literal.splitSign cs).2 ++ rest) := by
  cases cs with
  | nil => exact absurd rfl h
  | cons c cs =>
    rw [List.cons_append]
    unfold Literal.splitSign
    split
    · next heq =>
      cases heq
      rfl
    · next heq =>
      cases heq
      rfl
    · next hminus hplus =>
      split
      · next heq =>
        cases heq
        exact absurd rfl (hminus _)
      · next heq =>
        cases heq
        exact absurd rfl (hplus _)
      · rfl

theorem readExponent?_append {exponent : Option Int}
    (h : readExponent? cs = some (exponent, tail)) (hends : Ends rest) :
    readExponent? (cs ++ rest) = some (exponent, tail ++ rest) := by
  cases cs with
  | nil =>
    cases h
    exact readExponent?_of_ends hends
  | cons c cs =>
    by_cases hc : c = 'e' ∨ c = 'E'
    · unfold readExponent? at h ⊢
      rw [List.cons_append]
      dsimp only at h ⊢
      rw [if_pos hc] at h ⊢
      by_cases hcs : cs = []
      · -- an exponent without digits is refused
        subst hcs
        exact absurd h (by simp [Literal.splitSign, Digits.span])
      · rw [splitSign_append hcs]
        dsimp only
        rw [span_append_of_ends _ hends]
        dsimp only
        split at h
        · exact absurd h (by simp)
        · next hdigits =>
          cases h
          rw [if_neg hdigits]
    · rw [readExponent?_of_ne hc] at h
      cases h
      exact readExponent?_of_ne hc _

/-- A numeral without its sign, part by part. -/
theorem readUnsigned?_eq_some {negative : Bool} {n : Numeral}
    (h : readUnsigned? negative cs = some (n, tail)) :
    ∃ fraction exponent afterFraction,
      ¬((Digits.span cs).1 = [] ∨
        ((Digits.span cs).1.head? = some '0' ∧ (Digits.span cs).1.length ≠ 1)) ∧
      readFraction? (Digits.span cs).2 = some (fraction, afterFraction) ∧
      readExponent? afterFraction = some (exponent, tail) ∧
      n = ⟨negative, (Digits.span cs).1, fraction, exponent⟩ := by
  unfold readUnsigned? at h
  dsimp only at h
  split at h
  · exact absurd h (by simp)
  · next hwhole =>
    obtain ⟨⟨fraction, afterFraction⟩, hfraction, h⟩ := Option.bind_eq_some_iff.1 h
    obtain ⟨⟨exponent, last⟩, hexponent, h⟩ := Option.bind_eq_some_iff.1 h
    cases h
    exact ⟨fraction, exponent, afterFraction, hwhole, hfraction, hexponent, rfl⟩

theorem readUnsigned?_append {negative : Bool} {n : Numeral}
    (h : readUnsigned? negative cs = some (n, tail)) (hends : Ends rest) :
    readUnsigned? negative (cs ++ rest) = some (n, tail ++ rest) := by
  obtain ⟨fraction, exponent, afterFraction, hwhole, hfraction, hexponent, rfl⟩ :=
    readUnsigned?_eq_some h
  unfold readUnsigned?
  rw [span_append_of_ends cs hends]
  dsimp only
  rw [if_neg hwhole, readFraction?_append hfraction hends]
  dsimp only [Option.bind_eq_bind, Option.bind_some]
  rw [readExponent?_append hexponent hends]
  rfl

theorem readNumeral?_of_ne {c : Char} (h : c ≠ '-') (cs : List Char) :
    readNumeral? (c :: cs) = readUnsigned? false (c :: cs) := by
  unfold readNumeral?
  split
  · next heq =>
    cases heq
    exact absurd rfl h
  · rfl

/-- A numeral starts with a minus sign or a digit. -/
theorem head_of_readNumeral? {n : Numeral} (h : readNumeral? cs = some (n, tail)) :
    ∃ c rest, cs = c :: rest ∧ (c = '-' ∨ c.isDigit = true) := by
  cases cs with
  | nil => exact absurd h (by simp [readNumeral?, readUnsigned?, Digits.span])
  | cons c cs =>
    refine ⟨c, cs, rfl, ?_⟩
    by_cases hminus : c = '-'
    · exact Or.inl hminus
    · rw [readNumeral?_of_ne hminus] at h
      obtain ⟨_, _, _, hwhole, _⟩ := readUnsigned?_eq_some h
      by_cases hdigit : c.isDigit = true
      · exact Or.inr hdigit
      · -- the digits before the point cannot be missing
        exact absurd (Or.inl (by simp [Digits.span, hdigit])) hwhole

theorem readNumeral?_append {n : Numeral} (h : readNumeral? cs = some (n, tail))
    (hends : Ends rest) : readNumeral? (cs ++ rest) = some (n, tail ++ rest) := by
  obtain ⟨c, cs', rfl, _⟩ := head_of_readNumeral? h
  rw [List.cons_append]
  by_cases hminus : c = '-'
  · subst hminus
    exact readUnsigned?_append h hends
  · rw [readNumeral?_of_ne hminus] at h ⊢
    exact readUnsigned?_append h hends

end Json

/-! ## Numbers -/

/-- The text of a number is a numeral that denotes this very number. -/
def JsonNumber.ReadsBack (n : JsonNumber) : Prop :=
  ∃ numeral, Json.readNumeral? (Json.writeNumber n) = some (numeral, []) ∧
    numeral.toNumber? = some n

namespace Json

theorem readUnsigned?_write (negative : Bool) (n : Nat) :
    readUnsigned? negative (Digits.write n)
      = some (⟨negative, Digits.write n, none, none⟩, []) := by
  have hwhole : ¬(Digits.write n = [] ∨
      ((Digits.write n).head? = some '0' ∧ (Digits.write n).length ≠ 1)) := by
    rintro (hnil | ⟨hzero, hlength⟩)
    · exact Digits.write_ne_nil n hnil
    · by_cases hn : n = 0
      · rw [hn, Digits.write_zero] at hlength
        exact hlength rfl
      · exact Digits.head?_write_ne_zero hn hzero
  unfold readUnsigned?
  rw [Digits.span_write]
  dsimp only
  rw [if_neg hwhole]
  rfl

theorem readNumeral?_write (n : Nat) :
    readNumeral? (Digits.write n) = some (⟨false, Digits.write n, none, none⟩, []) := by
  obtain ⟨c, rest, hwrite⟩ := List.exists_cons_of_ne_nil (Digits.write_ne_nil n)
  have hmem : c ∈ Digits.write n := hwrite ▸ List.mem_cons_self
  have hdigit : c.isDigit = true := Digits.write_isDigit n c hmem
  have hminus : c ≠ '-' := by
    rintro rfl
    exact absurd hdigit (by decide)
  have hread := readUnsigned?_write false n
  rw [hwrite] at hread ⊢
  rw [readNumeral?_of_ne hminus, hread]

end Json

theorem WideInt.ofInt?_val (i : WideInt) : WideInt.ofInt? i.val = some i :=
  dif_pos ⟨i.lower, i.upper⟩

/-- A numeral of digits only denotes an integer, unless it is a negative zero. -/
theorem Json.Numeral.toNumber?_int {negative : Bool} {whole : List Char} {i : WideInt}
    (hval : (if negative then -(Digits.value whole : Int) else Digits.value whole) = i.val)
    (hzero : ¬(negative = true ∧ Digits.value whole = 0)) :
    Json.Numeral.toNumber? ⟨negative, whole, none, none⟩ = some (.int i) := by
  unfold Json.Numeral.toNumber?
  dsimp only
  rw [hval, WideInt.ofInt?_val, decide_eq_false hzero]

/-- Integers come back whatever they are. -/
theorem JsonNumber.readsBack_int (i : WideInt) : (JsonNumber.int i).ReadsBack := by
  unfold ReadsBack Json.writeNumber
  dsimp only
  cases hi : i.val with
  | ofNat n =>
    refine ⟨_, Json.readNumeral?_write n, Json.Numeral.toNumber?_int ?_ (by simp)⟩
    rw [Digits.value_write, if_neg Bool.false_ne_true, hi]
    rfl
  | negSucc n =>
    refine ⟨_, Json.readUnsigned?_write true (n + 1), Json.Numeral.toNumber?_int ?_ ?_⟩
    · rw [Digits.value_write, if_pos rfl, hi]
      rfl
    · rw [Digits.value_write]
      exact fun h => absurd h.2 (Nat.succ_ne_zero n)

theorem Json.readNumber_write {n : JsonNumber} {ε : Type} {rest : List Char} (h : n.ReadsBack)
    (hends : Json.Ends rest) :
    Json.readNumber (ε := ε) (Json.writeNumber n ++ rest) = .ok (n, rest) := by
  obtain ⟨numeral, hread, hdenotes⟩ := h
  unfold Json.readNumber
  rw [Json.readNumeral?_append hread hends]
  dsimp only
  rw [hdenotes]
  rfl

end KeywordRunner
