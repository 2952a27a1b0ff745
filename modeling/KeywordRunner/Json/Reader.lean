import KeywordRunner.Json.Value
import KeywordRunner.Numeral.Literal
import KeywordRunner.Text.Hex

/-!
# Json.Reader — reading JSON texts

A reader takes the characters at a position and gives what it read with the characters that
follow, or the first fault it meets from left to right. `readValue` reads any value under a bound
on nesting; `readList` and its kin read containers item by item, so that readers for particular
shapes (see `Json.Record`) meet faults in the same order.

The reader of numbers is idealised: whatever is no integer of 64 bits becomes the binary64 number
nearest to it. A reader that gathers digits in one machine word and scales them once may come to a
neighbour of that, from sixteen digits on, or find a numeral out of range that is just within it.
Statements about numbers that are written and read again therefore suppose that these read back.
-/

namespace KeywordRunner

/-- Why a text was not read. `ε` holds the causes that one kind of document adds. -/
inductive JsonFault (ε : Type) where
  | malformed
  /-- More containers are open than a reader admits. -/
  | tooDeep
  /-- A number is beyond every finite binary64 number. -/
  | outOfRange
  /-- A well-formed value of a kind, or out of a range, that its place does not admit. -/
  | mismatch
  | repeated (field : String)
  /-- A list of fields has more items than there are fields. -/
  | surplus
  | rejected (cause : ε)
  deriving DecidableEq, Repr

abbrev JsonReader (ε α : Type) := List Char → Except (JsonFault ε) (α × List Char)

namespace Json

variable {ε α σ : Type}

/-- How many containers may be open at once. -/
def maxDepth : Nat := 127

/-! ### Blanks, words and strings -/

/-- The blanks between tokens: space, tab, line feed and carriage return, nothing else. -/
def isSpace (c : Char) : Bool := c == ' ' || c == '\t' || c == '\n' || c == '\r'

def skipSpace (cs : List Char) : List Char := cs.dropWhile isSpace

def readWord (word : List Char) (value : α) : JsonReader ε α := fun cs =>
  if word.isPrefixOf cs then .ok (value, cs.drop word.length) else .error .malformed

def readHex4? : List Char → Option (Nat × List Char)
  | a :: b :: c :: d :: rest => do
    let a ← Text.hexValue? a
    let b ← Text.hexValue? b
    let c ← Text.hexValue? c
    let d ← Text.hexValue? d
    pure (((a * 16 + b) * 16 + c) * 16 + d, rest)
  | _ => none

def shortEscape? (c : Char) : Option Char :=
  if c = '"' then some '"'
  else if c = '\\' then some '\\'
  else if c = '/' then some '/'
  else if c = 'b' then some '\x08'
  else if c = 'f' then some '\x0c'
  else if c = 'n' then some '\n'
  else if c = 'r' then some '\r'
  else if c = 't' then some '\t'
  else none

/-- The character of a numeric escape, after its `\u`. A high surrogate needs the escape of a low
one directly after it, and a low surrogate never stands alone. -/
def readUnicode? (cs : List Char) : Option (Char × List Char) := do
  let (high, rest) ← readHex4? cs
  if 0xDC00 ≤ high ∧ high ≤ 0xDFFF then none
  else if high < 0xD800 ∨ 0xDBFF < high then pure (Char.ofNat high, rest)
  else
    match rest with
    | '\\' :: 'u' :: rest => do
      let (low, rest) ← readHex4? rest
      if low < 0xDC00 ∨ 0xDFFF < low then none
      else pure (Char.ofNat (0x10000 + (high - 0xD800) * 0x400 + (low - 0xDC00)), rest)
    | _ => none

theorem length_readHex4? {cs rest : List Char} {n : Nat} (h : readHex4? cs = some (n, rest)) :
    rest.length < cs.length := by
  match cs with
  | a :: b :: c :: d :: tail =>
    simp only [readHex4?, Option.bind_eq_bind, Option.bind_eq_some_iff, Option.pure_def,
      Option.some.injEq, Prod.mk.injEq] at h
    obtain ⟨_, _, _, _, _, _, _, _, _, hrest⟩ := h
    subst hrest
    simp only [List.length_cons]
    omega

theorem length_readUnicode? {cs rest : List Char} {c : Char}
    (h : readUnicode? cs = some (c, rest)) : rest.length < cs.length := by
  unfold readUnicode? at h
  cases h4 : readHex4? cs with
  | none => simp [h4] at h
  | some p =>
    obtain ⟨high, tail⟩ := p
    have hlen := length_readHex4? h4
    simp only [h4, Option.bind_eq_bind, Option.bind_some] at h
    split at h
    · simp at h
    · split at h
      · simp only [Option.pure_def, Option.some.injEq, Prod.mk.injEq] at h
        rw [← h.2]
        exact hlen
      · split at h
        · next tail' =>
          cases h5 : readHex4? tail' with
          | none => simp [h5] at h
          | some q =>
            obtain ⟨low, tail''⟩ := q
            have hlen' := length_readHex4? h5
            simp only [h5, Option.bind_some] at h
            split at h
            · simp at h
            · simp only [Option.pure_def, Option.some.injEq, Prod.mk.injEq] at h
              simp only [List.length_cons] at hlen
              obtain ⟨_, h⟩ := h
              subst h
              omega
        · simp at h

/-- The characters of a string after its opening quote, the latest first in `acc`. Control
characters must be escaped. -/
def readChars (acc : List Char) (cs : List Char) : Option (List Char × List Char) :=
  match cs with
  | [] => none
  | '"' :: rest => some (acc.reverse, rest)
  | '\\' :: 'u' :: rest =>
    match h : readUnicode? rest with
    | some (c, rest') =>
      have := length_readUnicode? h
      readChars (c :: acc) rest'
    | none => none
  | '\\' :: c :: rest =>
    match shortEscape? c with
    | some c => readChars (c :: acc) rest
    | none => none
  | c :: rest =>
    if c = '\\' ∨ c.toNat < 0x20 then none else readChars (c :: acc) rest
termination_by cs.length

/-- A string, from its opening quote on. -/
def readString : JsonReader ε String := fun cs =>
  match skipSpace cs with
  | '"' :: rest =>
    match readChars [] rest with
    | some (s, rest) => .ok (String.ofList s, rest)
    | none => .error .malformed
  | _ => .error .mismatch

/-! ### Numbers -/

/-- The parts of a number as written. -/
structure Numeral where
  negative : Bool
  whole : List Char
  fraction : Option (List Char)
  exponent : Option Int

namespace Numeral

def finite? (x : Binary64) : Option JsonNumber :=
  if h : x.isFinite = true then some (.real x h) else none

/-- The number denoted: an integer where the text is one that 64 bits hold, else the nearest
binary64 number, rounded once and correctly. Negative zero is a binary64 number. -/
def toNumber? (n : Numeral) : Option JsonNumber :=
  match n.fraction, n.exponent with
  | none, none =>
    let magnitude := Digits.value n.whole
    let integer? := WideInt.ofInt? (if n.negative then -(magnitude : Int) else magnitude)
    match integer?, decide (n.negative ∧ magnitude = 0) with
    | some i, false => some (.int i)
    | _, _ => finite? (Nearest.ofDecimal n.negative magnitude 0)
  | fraction, exponent =>
    let fraction := fraction.getD []
    finite? (Nearest.ofDecimal n.negative (Digits.value (n.whole ++ fraction))
      (exponent.getD 0 - fraction.length))

end Numeral

/-- The fraction of a numeral: nothing, or a point and at least one digit. -/
def readFraction? : List Char → Option (Option (List Char) × List Char)
  | '.' :: cs =>
    let (ds, rest) := Digits.span cs
    if ds = [] then none else some (some ds, rest)
  | cs => some (none, cs)

/-- The exponent of a numeral: nothing, or `e`, an optional sign and at least one digit. -/
def readExponent? : List Char → Option (Option Int × List Char)
  | [] => some (none, [])
  | c :: cs =>
    if c = 'e' ∨ c = 'E' then
      let (negative, unsigned) := Literal.splitSign cs
      let (ds, rest) := Digits.span unsigned
      if ds = [] then none
      else some (some (if negative then -(Digits.value ds : Int) else Digits.value ds), rest)
    else some (none, c :: cs)

/-- A numeral without its sign. Several digits never start with a zero. -/
def readUnsigned? (negative : Bool) (cs : List Char) : Option (Numeral × List Char) := do
  let (whole, rest) := Digits.span cs
  if whole = [] ∨ (whole.head? = some '0' ∧ whole.length ≠ 1) then none
  else
    let (fraction, rest) ← readFraction? rest
    let (exponent, rest) ← readExponent? rest
    pure (⟨negative, whole, fraction, exponent⟩, rest)

def readNumeral? : List Char → Option (Numeral × List Char)
  | '-' :: cs => readUnsigned? true cs
  | cs => readUnsigned? false cs

def readNumber : JsonReader ε JsonNumber := fun cs =>
  match readNumeral? cs with
  | none => .error .malformed
  | some (n, rest) =>
    match n.toNumber? with
    | some n => .ok (n, rest)
    | none => .error .outOfRange

/-! ### Containers -/

/-- Items, each read by `item` into a running state, up to the closing bracket. The budget is a text
no shorter than the one that is read: every item uses up one of its characters, so it never runs out
first. -/
def readItems (close : Char) (item : σ → JsonReader ε σ) : List Char → σ → JsonReader ε σ
  | [], _, _ => .error .malformed
  | _ :: budget, s, cs =>
    match item s cs with
    | .error e => .error e
    | .ok (s', rest) =>
      match skipSpace rest with
      | [] => .error .malformed
      | c :: rest' =>
        if c = ',' then readItems close item budget s' rest'
        else if c = close then .ok (s', rest')
        else .error .malformed

/-- The inside of a container after its opening bracket: nothing, or items between commas. -/
def readContainer (close : Char) (item : σ → JsonReader ε σ) (initial : σ) : JsonReader ε σ :=
  fun cs =>
    match skipSpace cs with
    | [] => .error .malformed
    | c :: rest =>
      if c = close then .ok (initial, rest)
      else readItems close item (c :: rest) initial (c :: rest)

/-- The name of a member and the colon after it. -/
def readName : JsonReader ε String := fun cs => do
  let (name, rest) ← readString cs
  match skipSpace rest with
  | ':' :: rest => pure (name, rest)
  | _ => .error .malformed

/-- The inside of an array. -/
def readList (item : JsonReader ε α) : JsonReader ε (List α) := fun cs => do
  let step := fun (acc : List α) (cs : List Char) => do
    let (x, rest) ← item cs
    pure (x :: acc, rest)
  let (acc, rest) ← readContainer ']' step [] cs
  pure (acc.reverse, rest)

/-- The inside of an object; of members with the same name the last one counts. -/
def readMembers (item : JsonReader ε α) : JsonReader ε (List (String × α)) :=
  readContainer '\x7d' (fun acc cs => do
    let (name, rest) ← readName cs
    let (x, rest) ← item rest
    pure (Entries.insert name x acc, rest)) []

/-! ### Values -/

/-- A value, whose containers are read by `array` and `object` after their opening bracket. -/
def readWith (array : JsonReader ε Json) (object : JsonReader ε Json) : JsonReader ε Json :=
  fun cs =>
    match skipSpace cs with
    | [] => .error .malformed
    | 'n' :: rest => readWord ['u', 'l', 'l'] .null rest
    | 't' :: rest => readWord ['r', 'u', 'e'] (.bool true) rest
    | 'f' :: rest => readWord ['a', 'l', 's', 'e'] (.bool false) rest
    | '"' :: rest => (readString ('"' :: rest)).map fun (s, rest) => (.str s, rest)
    | '[' :: rest => array rest
    | '\x7b' :: rest => object rest
    | rest => (readNumber rest).map fun (n, rest) => (.num n, rest)

/-- A value with at most `depth` containers open at once. -/
def readValue : Nat → JsonReader ε Json
  | 0 => readWith (fun _ => .error .tooDeep) (fun _ => .error .tooDeep)
  | depth + 1 =>
    readWith
      (fun cs => (readList (readValue depth) cs).map fun (js, rest) => (.arr js, rest))
      (fun cs => (readMembers (readValue depth) cs).map fun (ms, rest) => (.obj ms, rest))

/-- Runs a reader on a whole text: only blanks may follow what it read. -/
def readAll (reader : JsonReader ε α) (text : String) : Except (JsonFault ε) α := do
  let (x, rest) ← reader text.toList
  if skipSpace rest = [] then pure x else .error .malformed

def parse? (text : String) : Option Json :=
  (readAll (ε := Empty) (readValue maxDepth) text).toOption

end Json

end KeywordRunner
