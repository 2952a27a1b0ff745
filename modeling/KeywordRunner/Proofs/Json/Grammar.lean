import KeywordRunner.Proofs.Json.Records

/-!
# Proofs.Json.Grammar — what JSON texts are, and that they are read

The grammar of JSON texts, apart from any reader: which blanks may stand between tokens, what a
number looks like, and how values are nested. A reader that skips a value gets behind it whatever it
holds: its nesting, the size of its numbers and the surrogates in its strings are of no concern.

* **`Reads`** — a text is read as a value whatever follows, and whatever blanks come before it.
* **`Derives`** — the rules for values; **`reads_skipValue`**: every value is skipped.

Skipping is a machine with a stack of open brackets and a budget. `Leads` says that it gets from one
position to another whatever the budget is, so the budget is seen in its few steps only.
-/

namespace KeywordRunner.Json

variable {ε α : Type} {cs rest text blank : List Char}

/-! ## Blanks -/

def IsBlank (cs : List Char) : Prop := ∀ c ∈ cs, c ∈ [' ', '\t', '\n', '\r']

theorem isBlank_nil : IsBlank [] := fun _ h => absurd h List.not_mem_nil

theorem isSpace_of_mem {c : Char} (h : c ∈ [' ', '\t', '\n', '\r']) : isSpace c = true := by
  simp only [List.mem_cons, List.not_mem_nil, or_false] at h
  rcases h with rfl | rfl | rfl | rfl <;> rfl

theorem skipSpace_blank (h : IsBlank blank) (rest : List Char) :
    skipSpace (blank ++ rest) = skipSpace rest :=
  List.dropWhile_append_of_pos fun c hc => isSpace_of_mem (h c hc)

theorem ends_nil : Ends [] := fun _ h => absurd h (by simp)

/-- Blanks end a numeral as well as what comes behind them does. -/
theorem ends_blank (h : IsBlank blank) (hends : Ends rest) : Ends (blank ++ rest) := by
  cases blank with
  | nil => exact hends
  | cons c cs =>
    have hc := h c List.mem_cons_self
    simp only [List.mem_cons, List.not_mem_nil, or_false] at hc
    refine ends_cons ?_
    rcases hc with rfl | rfl | rfl | rfl <;> decide

/-- A reader that reads a text as a value, with blanks before it, whatever follows. -/
def Reads (reader : JsonReader ε α) (text : List Char) (a : α) : Prop :=
  ∀ blank rest, IsBlank blank → Ends rest → reader (blank ++ (text ++ rest)) = .ok (a, rest)

theorem reads_string {s : String} (h : StringText s text) : Reads (ε := ε) readString text s := by
  intro blank rest hblank _
  have hskip : readString (ε := ε) (blank ++ (text ++ rest)) = readString (text ++ rest) := by
    unfold readString
    rw [skipSpace_blank hblank]
  rw [hskip]
  exact readString_text h rest

/-! ## Numbers -/

def IsDigits (ds : List Char) : Prop := ds ≠ [] ∧ ∀ c ∈ ds, c.isDigit = true

/-- The digits before the point: a zero alone, or digits that do not start with one. -/
def IsWhole (ds : List Char) : Prop := IsDigits ds ∧ (ds.head? = some '0' → ds.length = 1)

def IsFraction (cs : List Char) : Prop := cs = [] ∨ ∃ ds, IsDigits ds ∧ cs = '.' :: ds

def IsExponent (cs : List Char) : Prop :=
  cs = [] ∨ ∃ e sign ds, (e = 'e' ∨ e = 'E') ∧ (sign = [] ∨ sign = ['+'] ∨ sign = ['-']) ∧
    IsDigits ds ∧ cs = e :: (sign ++ ds)

def IsNumber (cs : List Char) : Prop :=
  ∃ sign whole fraction exponent, (sign = [] ∨ sign = ['-']) ∧ IsWhole whole ∧
    IsFraction fraction ∧ IsExponent exponent ∧
    cs = sign ++ (whole ++ (fraction ++ exponent))

theorem span_digits {ds : List Char} (h : IsDigits ds)
    (hstop : ∀ c ∈ rest.head?, c.isDigit = false) : Digits.span (ds ++ rest) = (ds, rest) := by
  have hrest : rest.takeWhile Char.isDigit = [] ∧ rest.dropWhile Char.isDigit = rest := by
    cases rest with
    | nil => exact ⟨rfl, rfl⟩
    | cons c rest =>
      have hc : ¬c.isDigit = true := by simp [hstop c rfl]
      exact ⟨List.takeWhile_cons_of_neg hc, List.dropWhile_cons_of_neg hc⟩
  unfold Digits.span
  rw [List.takeWhile_append_of_pos h.2, List.dropWhile_append_of_pos h.2, hrest.1, hrest.2,
    List.append_nil]

theorem head_of_isDigits {ds : List Char} (h : IsDigits ds) :
    ∃ c cs, ds = c :: cs ∧ c.isDigit = true := by
  obtain ⟨c, cs, rfl⟩ := List.exists_cons_of_ne_nil h.1
  exact ⟨c, cs, rfl, h.2 c List.mem_cons_self⟩

theorem readExponent?_text {exponent : List Char} (h : IsExponent exponent) (hends : Ends rest) :
    ∃ value, readExponent? (exponent ++ rest) = some (value, rest) := by
  obtain rfl | ⟨e, sign, ds, he, hsign, hds, rfl⟩ := h
  · exact ⟨none, readExponent?_of_ends hends⟩
  · obtain ⟨c, cs, rfl, hc⟩ := head_of_isDigits hds
    have hplus : c ≠ '+' := by
      rintro rfl
      exact absurd hc (by decide)
    have hminus : c ≠ '-' := by
      rintro rfl
      exact absurd hc (by decide)
    have hunsigned : (Literal.splitSign (sign ++ (c :: cs ++ rest))).2 = c :: cs ++ rest := by
      obtain rfl | rfl | rfl := hsign
      · unfold Literal.splitSign
        rw [List.nil_append, List.cons_append]
        split
        · next heq => exact absurd (List.cons.inj heq).1 hminus
        · next heq => exact absurd (List.cons.inj heq).1 hplus
        · rfl
      · rfl
      · rfl
    have hspan := span_digits hds fun c hc => (hends c hc).1
    unfold readExponent?
    rw [List.cons_append, List.append_assoc]
    dsimp only
    rw [if_pos he, hunsigned, hspan]
    exact ⟨_, if_neg hds.1⟩

theorem readFraction?_text {fraction exponent : List Char} (hfraction : IsFraction fraction)
    (hexponent : IsExponent exponent) (hends : Ends rest) :
    ∃ value, readFraction? (fraction ++ (exponent ++ rest)) = some (value, exponent ++ rest) := by
  have hstop : ∀ c ∈ (exponent ++ rest).head?, c.isDigit = false ∧ c ≠ '.' := by
    obtain rfl | ⟨e, sign, ds, he, _, _, rfl⟩ := hexponent
    · exact fun c hc => ⟨(hends c hc).1, (hends c hc).2.1⟩
    · intro c hc
      cases hc
      rcases he with rfl | rfl <;> decide
  obtain rfl | ⟨ds, hds, rfl⟩ := hfraction
  · rw [List.nil_append]
    cases htail : exponent ++ rest with
    | nil => exact ⟨none, rfl⟩
    | cons c tail => exact ⟨none, readFraction?_of_ne (hstop c (by rw [htail]; rfl)).2 tail⟩
  · rw [List.cons_append, readFraction?_point, span_digits hds fun c hc => (hstop c hc).1]
    exact ⟨_, if_neg hds.1⟩

/-- **Every number is read as a numeral.** -/
theorem readNumeral?_text (h : IsNumber text) (hends : Ends rest) :
    ∃ n, readNumeral? (text ++ rest) = some (n, rest) := by
  obtain ⟨sign, whole, fraction, exponent, hsign, ⟨hwhole, hzero⟩, hfraction, hexponent, rfl⟩ := h
  have hstop : ∀ c ∈ (fraction ++ (exponent ++ rest)).head?, c.isDigit = false := by
    obtain rfl | ⟨ds, _, rfl⟩ := hfraction
    · obtain rfl | ⟨e, sign, ds, he, _, _, rfl⟩ := hexponent
      · exact fun c hc => (hends c hc).1
      · intro c hc
        cases hc
        rcases he with rfl | rfl <;> decide
    · intro c hc
      cases hc
      decide
  obtain ⟨f, hf⟩ := readFraction?_text hfraction hexponent hends
  obtain ⟨e, he⟩ := readExponent?_text hexponent hends
  have hunsigned : ∀ negative,
      readUnsigned? negative (whole ++ (fraction ++ (exponent ++ rest)))
        = some (⟨negative, whole, f, e⟩, rest) := by
    intro negative
    have hgood : ¬(whole = [] ∨ whole.head? = some '0' ∧ whole.length ≠ 1) := by
      rintro (hnil | ⟨hfirst, hlength⟩)
      · exact hwhole.1 hnil
      · exact hlength (hzero hfirst)
    unfold readUnsigned?
    rw [span_digits hwhole hstop]
    dsimp only
    rw [if_neg hgood, hf]
    simp only [Option.bind_eq_bind, Option.bind_some, he]
    rfl
  rw [List.append_assoc, List.append_assoc, List.append_assoc]
  obtain rfl | rfl := hsign
  · obtain ⟨c, cs, rfl, hc⟩ := head_of_isDigits hwhole
    have hminus : c ≠ '-' := by
      rintro rfl
      exact absurd hc (by decide)
    rw [List.nil_append, List.cons_append, readNumeral?_of_ne hminus, ← List.cons_append]
    exact ⟨_, hunsigned false⟩
  · exact ⟨_, hunsigned true⟩

theorem head_of_isNumber (h : IsNumber text) :
    ∃ c cs, text = c :: cs ∧ (c = '-' ∨ c.isDigit = true) := by
  obtain ⟨n, hread⟩ := readNumeral?_text h ends_nil
  rw [List.append_nil] at hread
  exact head_of_readNumeral? hread

/-- A natural number is read from its digits. -/
theorem reads_natural {limit n : Nat} (hlimit : limit < 0x10000000000000000) (h : n ≤ limit) :
    Reads (ε := ε) (readNatural limit) (Digits.write n) n := by
  intro blank rest hblank hends
  let i : WideInt := ⟨n, by omega, by omega⟩
  have hread := readNatural_write (ε := ε) limit (i := i)
    ⟨Int.natCast_nonneg n, Int.ofNat_le.2 h⟩ hends
  have hspace : readNatural (ε := ε) limit (blank ++ (Digits.write n ++ rest))
      = readNatural limit (Digits.write n ++ rest) := by
    unfold readNatural
    rw [skipSpace_blank hblank]
  exact hspace.trans hread

/-! ## Values -/

/-- A piece of a string whose contents do not matter: any numeric escape will do. -/
inductive IsPiece : List Char → Prop where
  | plain {c : Char} (hquote : c ≠ '"') (hslash : c ≠ '\\') (hcontrol : 0x20 ≤ c.toNat) :
      IsPiece [c]
  | short {c e : Char} (h : (e, c) ∈ shortEscapes) : IsPiece ['\\', e]
  | numeric {n : Nat} {digits : List Char} (h : IsHex4 n digits) :
      IsPiece ('\\' :: 'u' :: digits)

def IsString (text : List Char) : Prop :=
  ∃ pieces : List (List Char), (∀ piece ∈ pieces, IsPiece piece) ∧
    text = '"' :: (pieces.flatten ++ ['"'])

/-- What a text can be in the rules for values. An element is a value with the blanks around it. -/
inductive Part where
  | value
  | element
  | elements
  | member
  | members

/-- The rules for values. -/
inductive Derives : Part → List Char → Prop where
  | null : Derives .value ['n', 'u', 'l', 'l']
  | true : Derives .value ['t', 'r', 'u', 'e']
  | false : Derives .value ['f', 'a', 'l', 's', 'e']
  | number {text : List Char} (h : IsNumber text) : Derives .value text
  | string {text : List Char} (h : IsString text) : Derives .value text
  | emptyArray {blank : List Char} (h : IsBlank blank) : Derives .value ('[' :: (blank ++ [']']))
  | array {inside : List Char} (h : Derives .elements inside) :
      Derives .value ('[' :: (inside ++ [']']))
  | emptyObject {blank : List Char} (h : IsBlank blank) :
      Derives .value ('\x7b' :: (blank ++ ['\x7d']))
  | object {inside : List Char} (h : Derives .members inside) :
      Derives .value ('\x7b' :: (inside ++ ['\x7d']))
  | element {before value after : List Char} (hbefore : IsBlank before)
      (h : Derives .value value) (hafter : IsBlank after) :
      Derives .element (before ++ (value ++ after))
  | lastElement {text : List Char} (h : Derives .element text) : Derives .elements text
  | moreElements {text others : List Char} (h : Derives .element text)
      (hothers : Derives .elements others) : Derives .elements (text ++ ',' :: others)
  | member {before name after element : List Char} (hbefore : IsBlank before)
      (hname : IsString name) (hafter : IsBlank after) (h : Derives .element element) :
      Derives .member (before ++ (name ++ (after ++ ':' :: element)))
  | lastMember {text : List Char} (h : Derives .member text) : Derives .members text
  | moreMembers {text others : List Char} (h : Derives .member text)
      (hothers : Derives .members others) : Derives .members (text ++ ',' :: others)

/-- A text that is one value. -/
def IsValue (text : List Char) : Prop := Derives .value text

/-! ### Strings and scalars are skipped -/

theorem skipChars?_piece {piece : List Char} (h : IsPiece piece) (rest : List Char) :
    skipChars? (piece ++ rest) = skipChars? rest := by
  cases h with
  | plain hquote hslash hcontrol =>
    rw [List.singleton_append, skipChars?.eq_5 _ rest hquote
      (fun _ _ _ _ _ h => absurd h hslash) (fun _ _ h => absurd h hslash)]
    exact if_neg fun h => h.elim hslash (Nat.not_lt.2 hcontrol)
  | short h =>
    obtain ⟨hu, hshort⟩ := shortEscape?_of_mem h
    rw [List.cons_append, List.singleton_append, skipChars?.eq_4 _ rest
      (fun _ _ _ _ _ h => absurd h hu), hshort]
    rfl
  | @numeric n digits h =>
    have hread := readHex4?_text h []
    rw [List.append_nil] at hread
    rcases h with _ | ⟨_, _ | ⟨_, _ | ⟨_, _ | ⟨_, _ | _⟩⟩⟩⟩
    simp only [List.cons_append, List.nil_append]
    rw [skipChars?.eq_3, hread]
    rfl

theorem skipChars?_text {pieces : List (List Char)} (h : ∀ piece ∈ pieces, IsPiece piece)
    (rest : List Char) : skipChars? (pieces.flatten ++ '"' :: rest) = some rest := by
  induction pieces with
  | nil => exact skipChars?.eq_2 rest
  | cons piece pieces ih =>
    obtain ⟨hpiece, hpieces⟩ := List.forall_mem_cons.1 h
    rw [List.flatten_cons, List.append_assoc, skipChars?_piece hpiece, ih hpieces]

theorem skipName?_text {before name after : List Char} (hbefore : IsBlank before)
    (hname : IsString name) (hafter : IsBlank after) (rest : List Char) :
    skipName? (before ++ (name ++ (after ++ ':' :: rest))) = some rest := by
  obtain ⟨pieces, hpieces, rfl⟩ := hname
  have hcolon : skipSpace (':' :: rest) = ':' :: rest := skipSpace_of_ne rfl rest
  unfold skipName?
  rw [skipSpace_blank hbefore, List.cons_append, List.append_assoc, List.singleton_append,
    skipSpace_of_ne rfl]
  simp only [skipChars?_text hpieces, Option.map_eq_map, Option.map_some, skipSpace_blank hafter,
    hcolon]

theorem skipScalar?_number (h : IsNumber text) (hends : Ends rest) :
    skipScalar? (text ++ rest) = some rest := by
  obtain ⟨n, hread⟩ := readNumeral?_text h hends
  obtain ⟨c, cs, heq, hc⟩ := head_of_readNumeral? hread
  have hn : c ≠ 'n' := ne_of_numeral hc (by decide) (by decide)
  have ht : c ≠ 't' := ne_of_numeral hc (by decide) (by decide)
  have hf : c ≠ 'f' := ne_of_numeral hc (by decide) (by decide)
  have hquote : c ≠ '"' := ne_of_numeral hc (by decide) (by decide)
  rw [heq] at hread ⊢
  unfold skipScalar?
  split
  · next heq => exact absurd (List.cons.inj heq).1 hn
  · next heq => exact absurd (List.cons.inj heq).1 ht
  · next heq => exact absurd (List.cons.inj heq).1 hf
  · next heq => exact absurd (List.cons.inj heq).1 hquote
  · rw [hread]
    rfl

/-! ### The steps of the machine -/

/-- Where skipping has got to: before a value or behind one, the open brackets, and the text. -/
structure Position where
  value : Bool
  stack : List Bracket
  text : List Char

/-- Skipping gets from one position to another, whatever is left of a budget that is no shorter than
the text. -/
def Leads (p q : Position) : Prop :=
  ∀ budget : List Char, p.text.length ≤ budget.length →
    ∃ budget' : List Char, q.text.length ≤ budget'.length ∧
      skipRest? budget p.value p.stack p.text = skipRest? budget' q.value q.stack q.text

variable {p q r : Position} {stack : List Bracket} {b : Bracket} {inside tail : List Char}

theorem Leads.trans (h : Leads p q) (h' : Leads q r) : Leads p r := by
  intro budget hbudget
  obtain ⟨budget', hbudget', hq⟩ := h budget hbudget
  obtain ⟨budget'', hbudget'', hr⟩ := h' budget' hbudget'
  exact ⟨budget'', hbudget'', hq.trans hr⟩

/-- A step uses up one character of the budget and at least one of the text. -/
theorem leads_of_step {value : Bool} {c : Char} (hlength : q.text.length ≤ cs.length)
    (hstep : ∀ d budget, skipRest? (d :: budget) value stack (c :: cs)
      = skipRest? budget q.value q.stack q.text) :
    Leads ⟨value, stack, c :: cs⟩ q := by
  intro budget hbudget
  cases budget with
  | nil => exact absurd hbudget (by simp)
  | cons d budget =>
    exact ⟨budget, Nat.le_trans hlength (Nat.le_of_succ_le_succ hbudget), hstep d budget⟩

theorem leads_blank_value (h : IsBlank blank) (rest : List Char) :
    Leads ⟨true, stack, blank ++ rest⟩ ⟨true, stack, rest⟩ := by
  intro budget hbudget
  refine ⟨budget, Nat.le_trans ?_ hbudget, ?_⟩
  · exact (List.length_append ▸ Nat.le_add_left _ _ : rest.length ≤ (blank ++ rest).length)
  · cases budget with
    | nil => rfl
    | cons d budget =>
      show skipRest? (d :: budget) true stack (blank ++ rest)
        = skipRest? (d :: budget) true stack rest
      rw [skipRest?_value, skipRest?_value, skipSpace_blank h]

theorem leads_blank_behind (h : IsBlank blank) (rest : List Char) :
    Leads ⟨false, b :: stack, blank ++ rest⟩ ⟨false, b :: stack, rest⟩ := by
  intro budget hbudget
  refine ⟨budget, Nat.le_trans ?_ hbudget, ?_⟩
  · exact (List.length_append ▸ Nat.le_add_left _ _ : rest.length ≤ (blank ++ rest).length)
  · cases budget with
    | nil => rfl
    | cons d budget =>
      show skipRest? (d :: budget) false (b :: stack) (blank ++ rest)
        = skipRest? (d :: budget) false (b :: stack) rest
      rw [skipRest?_behind, skipRest?_behind, skipSpace_blank h]

theorem leads_scalar {c : Char} (hc : isSpace c = false ∧ c ≠ '[' ∧ c ≠ '\x7b')
    (h : skipScalar? (c :: cs) = some rest) (hlength : rest.length ≤ cs.length) :
    Leads ⟨true, stack, c :: cs⟩ ⟨false, stack, rest⟩ := by
  obtain ⟨hspace, harray, hobject⟩ := hc
  refine leads_of_step hlength fun d budget => ?_
  rw [skipRest?_value, skipSpace_of_ne hspace]
  split
  · next heq => exact absurd (List.cons.inj heq).1 harray
  · next heq => exact absurd (List.cons.inj heq).1 hobject
  · rw [h]

theorem leads_word {c : Char} {word : List Char} (hc : isSpace c = false ∧ c ≠ '[' ∧ c ≠ '\x7b')
    (h : skipScalar? (c :: (word ++ rest)) = some rest) :
    Leads ⟨true, stack, c :: word ++ rest⟩ ⟨false, stack, rest⟩ := by
  exact leads_scalar hc h (by simp)

theorem leads_number (h : IsNumber text) (hends : Ends rest) :
    Leads ⟨true, stack, text ++ rest⟩ ⟨false, stack, rest⟩ := by
  obtain ⟨c, cs, rfl, hc⟩ := head_of_isNumber h
  have harray : c ≠ '[' := ne_of_numeral hc (by decide) (by decide)
  have hobject : c ≠ '\x7b' := ne_of_numeral hc (by decide) (by decide)
  have hskip := skipScalar?_number h hends
  rw [List.cons_append] at hskip ⊢
  exact leads_scalar ⟨isSpace_of_numeral hc, harray, hobject⟩ hskip (by simp)

theorem leads_emptyArray (h : IsBlank blank) (rest : List Char) :
    Leads ⟨true, stack, '[' :: (blank ++ ']' :: rest)⟩ ⟨false, stack, rest⟩ := by
  refine leads_of_step ?_ fun d budget => ?_
  · simp only [List.length_append, List.length_cons]
    omega
  · have hinside : skipSpace (blank ++ ']' :: rest) = ']' :: rest := by
      rw [skipSpace_blank h, skipSpace_of_ne rfl]
    rw [skipRest?_value, skipSpace_of_ne rfl]
    simp only [hinside]

theorem leads_array (h : ∀ c ∈ (skipSpace inside).head?, c ≠ ']') :
    Leads ⟨true, stack, '[' :: inside⟩ ⟨true, .array :: stack, inside⟩ := by
  refine leads_of_step (Nat.le_refl _) fun d budget => ?_
  rw [skipRest?_value, skipSpace_of_ne rfl]
  cases hinside : skipSpace inside with
  | nil => simp only [hinside]
  | cons c cs =>
    have hc : c ≠ ']' := h c (by rw [hinside]; rfl)
    simp only [hinside]
    split
    · next heq => exact absurd (List.cons.inj heq).1 hc
    · rfl

theorem leads_emptyObject (h : IsBlank blank) (rest : List Char) :
    Leads ⟨true, stack, '\x7b' :: (blank ++ '\x7d' :: rest)⟩ ⟨false, stack, rest⟩ := by
  refine leads_of_step ?_ fun d budget => ?_
  · simp only [List.length_append, List.length_cons]
    omega
  · have hinside : skipSpace (blank ++ '\x7d' :: rest) = '\x7d' :: rest := by
      rw [skipSpace_blank h, skipSpace_of_ne rfl]
    rw [skipRest?_value, skipSpace_of_ne rfl]
    simp only [hinside]

theorem leads_object (h : skipName? inside = some tail) (hlength : tail.length ≤ inside.length) :
    Leads ⟨true, stack, '\x7b' :: inside⟩ ⟨true, .object :: stack, tail⟩ := by
  refine leads_of_step hlength fun d budget => ?_
  rw [skipRest?_value, skipSpace_of_ne rfl]
  cases hinside : skipSpace inside with
  | nil => simp only [hinside, h]
  | cons c cs =>
    have hc : c ≠ '\x7d' := by
      rintro rfl
      exact absurd h (by simp [skipName?, hinside])
    simp only [hinside, h]
    split
    · next heq => exact absurd (List.cons.inj heq).1 hc
    · rfl

theorem leads_close (rest : List Char) :
    Leads ⟨false, b :: stack, b.close :: rest⟩ ⟨false, stack, rest⟩ := by
  refine leads_of_step (Nat.le_refl _) fun d budget => ?_
  have hspace : isSpace b.close = false := by cases b <;> rfl
  rw [skipRest?_behind, skipSpace_of_ne hspace]
  exact if_pos rfl

theorem leads_comma_array (rest : List Char) :
    Leads ⟨false, .array :: stack, ',' :: rest⟩ ⟨true, .array :: stack, rest⟩ := by
  refine leads_of_step (Nat.le_refl _) fun d budget => ?_
  rw [skipRest?_behind, skipSpace_of_ne rfl]
  rfl

theorem leads_comma_object (h : skipName? rest = some tail) (hlength : tail.length ≤ rest.length) :
    Leads ⟨false, .object :: stack, ',' :: rest⟩ ⟨true, .object :: stack, tail⟩ := by
  refine leads_of_step hlength fun d budget => ?_
  rw [skipRest?_behind, skipSpace_of_ne rfl]
  dsimp only
  rw [if_neg (by decide), if_pos rfl, h]

/-! ### Every value is skipped -/

/-- The first character behind the blanks is no closing bracket. -/
theorem head_of_derives {part : Part} (h : Derives part text) (rest : List Char) :
    ∃ c cs, skipSpace (text ++ rest) = c :: cs ∧ c ≠ ']' := by
  induction h generalizing rest with
  | null => exact ⟨_, _, rfl, by decide⟩
  | true => exact ⟨_, _, rfl, by decide⟩
  | false => exact ⟨_, _, rfl, by decide⟩
  | number h =>
    obtain ⟨c, cs, rfl, hc⟩ := head_of_isNumber h
    exact ⟨c, cs ++ rest, skipSpace_of_ne (isSpace_of_numeral hc) _,
      ne_of_numeral hc (by decide) (by decide)⟩
  | string h =>
    obtain ⟨pieces, _, rfl⟩ := h
    exact ⟨_, _, skipSpace_of_ne rfl _, by decide⟩
  | emptyArray => exact ⟨_, _, skipSpace_of_ne rfl _, by decide⟩
  | array => exact ⟨_, _, skipSpace_of_ne rfl _, by decide⟩
  | emptyObject => exact ⟨_, _, skipSpace_of_ne rfl _, by decide⟩
  | object => exact ⟨_, _, skipSpace_of_ne rfl _, by decide⟩
  | element hbefore _ _ ih =>
    rw [List.append_assoc, skipSpace_blank hbefore, List.append_assoc]
    exact ih _
  | lastElement _ ih => exact ih rest
  | moreElements _ _ ih _ =>
    rw [List.append_assoc]
    exact ih _
  | member hbefore hname _ _ _ =>
    obtain ⟨pieces, _, rfl⟩ := hname
    rw [List.append_assoc, skipSpace_blank hbefore]
    exact ⟨_, _, skipSpace_of_ne rfl _, by decide⟩
  | lastMember _ ih => exact ih rest
  | moreMembers _ _ ih _ =>
    rw [List.append_assoc]
    exact ih _

/-- What skipping does with a text that follows the rules: it gets behind a value or an element, and
behind the bracket that closes elements or members. A member is met by its name. -/
def Skips : Part → List Char → Prop
  | .value, text => ∀ stack rest, Ends rest →
      Leads ⟨true, stack, text ++ rest⟩ ⟨false, stack, rest⟩
  | .element, text => ∀ b stack rest, Ends rest →
      Leads ⟨true, b :: stack, text ++ rest⟩ ⟨false, b :: stack, rest⟩
  | .elements, text => ∀ stack rest,
      Leads ⟨true, .array :: stack, text ++ ']' :: rest⟩ ⟨false, stack, rest⟩
  | .member, text => ∀ stack rest, Ends rest → ∃ tail, skipName? (text ++ rest) = some tail ∧
      tail.length ≤ (text ++ rest).length ∧
      Leads ⟨true, .object :: stack, tail⟩ ⟨false, .object :: stack, rest⟩
  | .members, text => ∀ stack rest, ∃ tail, skipName? (text ++ '\x7d' :: rest) = some tail ∧
      tail.length ≤ (text ++ '\x7d' :: rest).length ∧
      Leads ⟨true, .object :: stack, tail⟩ ⟨false, stack, rest⟩

theorem skips_of_derives {part : Part} (h : Derives part text) : Skips part text := by
  induction h with
  | null =>
    intro stack rest _
    exact leads_word (by decide) (by simp [skipScalar?, readWord, Except.toOption])
  | true =>
    intro stack rest _
    exact leads_word (by decide) (by simp [skipScalar?, readWord, Except.toOption])
  | false =>
    intro stack rest _
    exact leads_word (by decide) (by simp [skipScalar?, readWord, Except.toOption])
  | number h =>
    intro stack rest hends
    exact leads_number h hends
  | string h =>
    intro stack rest _
    obtain ⟨pieces, hpieces, rfl⟩ := h
    rw [List.cons_append, List.append_assoc, List.singleton_append]
    refine leads_scalar (by decide) (skipChars?_text hpieces rest) ?_
    simp only [List.length_append, List.length_cons]
    omega
  | emptyArray h =>
    intro stack rest _
    rw [List.cons_append, List.append_assoc, List.singleton_append]
    exact leads_emptyArray h rest
  | @array inside h ih =>
    intro stack rest _
    obtain ⟨c, cs, hhead, hc⟩ := head_of_derives h (']' :: rest)
    rw [List.cons_append, List.append_assoc, List.singleton_append]
    refine (leads_array ?_).trans (ih stack rest)
    intro d hd
    rw [hhead] at hd
    cases hd
    exact hc
  | emptyObject h =>
    intro stack rest _
    rw [List.cons_append, List.append_assoc, List.singleton_append]
    exact leads_emptyObject h rest
  | object _ ih =>
    intro stack rest _
    obtain ⟨tail, hname, hlength, hleads⟩ := ih stack rest
    rw [List.cons_append, List.append_assoc, List.singleton_append]
    exact (leads_object hname hlength).trans hleads
  | element hbefore _ hafter ih =>
    intro b stack rest hends
    rw [List.append_assoc, List.append_assoc]
    exact (leads_blank_value hbefore _).trans
      ((ih (b :: stack) _ (ends_blank hafter hends)).trans (leads_blank_behind hafter rest))
  | lastElement _ ih =>
    intro stack rest
    exact (ih .array stack _ (ends_bracket rest)).trans (leads_close (b := .array) rest)
  | moreElements _ _ ih ihothers =>
    intro stack rest
    rw [List.append_assoc, List.cons_append]
    exact (ih .array stack _ (ends_comma _)).trans
      ((leads_comma_array _).trans (ihothers stack rest))
  | @member before name after element hbefore hname hafter _ ih =>
    intro stack rest hends
    refine ⟨element ++ rest, ?_, ?_, ih .object stack rest hends⟩
    · simp only [List.append_assoc, List.cons_append]
      exact skipName?_text hbefore hname hafter _
    · simp only [List.length_append, List.length_cons]
      omega
  | lastMember _ ih =>
    intro stack rest
    obtain ⟨tail, hname, hlength, hleads⟩ := ih stack _ (ends_brace rest)
    exact ⟨tail, hname, hlength, hleads.trans (leads_close (b := .object) rest)⟩
  | moreMembers _ _ ih ihothers =>
    intro stack rest
    obtain ⟨tail', hname', hlength', hleads'⟩ := ihothers stack rest
    obtain ⟨tail, hname, hlength, hleads⟩ := ih stack (',' :: (_ ++ '\x7d' :: rest)) (ends_comma _)
    rw [List.append_assoc, List.cons_append]
    exact ⟨tail, hname, hlength, hleads.trans ((leads_comma_object hname' hlength').trans hleads')⟩

/-- **Every value is skipped**, and skipping stops right behind it. -/
theorem reads_skipValue (h : IsValue text) : Reads (ε := ε) skipValue text () := by
  intro blank rest hblank hends
  have hleads := (leads_blank_value hblank _).trans (skips_of_derives h [] rest hends)
  obtain ⟨budget, _, hskip⟩ := hleads (blank ++ (text ++ rest)) (Nat.le_refl _)
  have hskip' : skipRest? (blank ++ (text ++ rest)) true [] (blank ++ (text ++ rest)) = some rest :=
    hskip.trans (skipRest?.eq_1 budget rest)
  unfold skipValue
  rw [hskip']

end KeywordRunner.Json
