import KeywordRunner.Json.Reader

/-!
# Json.Record — reading documents of a known shape

A document with fixed fields is read straight into its structure: each `Field` names a member and
reads its value into an update, and fields that the text leaves out keep what they had. Members
with other names are skipped, whatever they hold; a field given twice is a fault. A JSON array may
stand for the object, its items in field order and trailing ones left out.

Faults are met in text order, so the first one decides; skipped values are checked for their
grammar alone, neither for nesting nor for the range of their numbers.
-/

namespace KeywordRunner.Json

variable {ε α σ : Type}

/-! ### Skipping a value -/

inductive Bracket where
  | array
  | object
  deriving DecidableEq

namespace Bracket

def close : Bracket → Char
  | .array => ']'
  | .object => '\x7d'

end Bracket

/-- The characters after a string's opening quote up to its closing one; escapes need their form
only. -/
def skipChars? : List Char → Option (List Char)
  | [] => none
  | '"' :: rest => some rest
  | '\\' :: 'u' :: a :: b :: c :: d :: rest =>
    if (readHex4? [a, b, c, d]).isSome then skipChars? rest else none
  | '\\' :: c :: rest => if (shortEscape? c).isSome then skipChars? rest else none
  | c :: rest => if c = '\\' ∨ c.toNat < 0x20 then none else skipChars? rest

/-- A string as the name of a skipped member, and the colon after it. -/
def skipName? (cs : List Char) : Option (List Char) :=
  match skipSpace cs with
  | '"' :: rest =>
    match skipSpace <$> skipChars? rest with
    | some (':' :: rest) => some rest
    | _ => none
  | _ => none

/-- A value without items: a word, a string or a number. -/
def skipScalar? (cs : List Char) : Option (List Char) :=
  match cs with
  | 'n' :: rest => (readWord (ε := Empty) ['u', 'l', 'l'] () rest).toOption.map (·.2)
  | 't' :: rest => (readWord (ε := Empty) ['r', 'u', 'e'] () rest).toOption.map (·.2)
  | 'f' :: rest => (readWord (ε := Empty) ['a', 'l', 's', 'e'] () rest).toOption.map (·.2)
  | '"' :: rest => skipChars? rest
  | rest => (readNumeral? rest).map (·.2)

/--
Skips what is left of the containers in `stack`, innermost first. With `value` the position is
that of a value, else it is behind one. Every step consumes a character, so a budget no shorter
than the text never runs out first.
-/
def skipRest? : List Char → Bool → List Bracket → List Char → Option (List Char)
  | _, false, [], cs => some cs
  | [], _, _, _ => none
  | _ :: budget, true, stack, cs =>
    match skipSpace cs with
    | '[' :: rest =>
      match skipSpace rest with
      | ']' :: rest => skipRest? budget false stack rest
      | _ => skipRest? budget true (.array :: stack) rest
    | '\x7b' :: rest =>
      match skipSpace rest with
      | '\x7d' :: rest => skipRest? budget false stack rest
      | _ =>
        match skipName? rest with
        | some rest => skipRest? budget true (.object :: stack) rest
        | none => none
    | cs =>
      match skipScalar? cs with
      | some rest => skipRest? budget false stack rest
      | none => none
  | _ :: budget, false, b :: stack, cs =>
    match skipSpace cs with
    | [] => none
    | c :: rest =>
      if c = b.close then skipRest? budget false stack rest
      else if c = ',' then
        match b with
        | .array => skipRest? budget true (.array :: stack) rest
        | .object =>
          match skipName? rest with
          | some rest => skipRest? budget true (.object :: stack) rest
          | none => none
      else none

/-- A step before a value. -/
theorem skipRest?_value (d : Char) (budget : List Char) (stack : List Bracket) (cs : List Char) :
    skipRest? (d :: budget) true stack cs =
      match skipSpace cs with
      | '[' :: rest =>
        match skipSpace rest with
        | ']' :: rest => skipRest? budget false stack rest
        | _ => skipRest? budget true (.array :: stack) rest
      | '\x7b' :: rest =>
        match skipSpace rest with
        | '\x7d' :: rest => skipRest? budget false stack rest
        | _ =>
          match skipName? rest with
          | some rest => skipRest? budget true (.object :: stack) rest
          | none => none
      | cs =>
        match skipScalar? cs with
        | some rest => skipRest? budget false stack rest
        | none => none := by
  rw [skipRest?]

/-- A step behind a value inside a container. -/
theorem skipRest?_behind (d : Char) (budget : List Char) (b : Bracket) (stack : List Bracket)
    (cs : List Char) :
    skipRest? (d :: budget) false (b :: stack) cs =
      match skipSpace cs with
      | [] => none
      | c :: rest =>
        if c = b.close then skipRest? budget false stack rest
        else if c = ',' then
          match b with
          | .array => skipRest? budget true (.array :: stack) rest
          | .object =>
            match skipName? rest with
            | some rest => skipRest? budget true (.object :: stack) rest
            | none => none
        else none := by
  rw [skipRest?]

/-- Any one value, checked for its grammar alone. -/
def skipValue : JsonReader ε Unit := fun cs =>
  match skipRest? cs true [] cs with
  | some rest => .ok ((), rest)
  | none => .error .malformed

/-! ### Fields of fixed kinds -/

/-- A natural number up to a limit, written as a JSON integer. -/
def readNatural (limit : Nat) : JsonReader ε Nat := fun cs =>
  match skipSpace cs with
  | [] => .error .malformed
  | c :: rest =>
    if c = '-' ∨ c.isDigit then do
      let (n, rest) ← readNumber (c :: rest)
      match n with
      | .int i => if 0 ≤ i.val ∧ i.val ≤ limit then pure (i.val.toNat, rest) else .error .mismatch
      | .real _ _ => .error .mismatch
    else .error .mismatch

/-- A value or `null`. -/
def readNullable (reader : JsonReader ε α) : JsonReader ε (Option α) := fun cs =>
  match skipSpace cs with
  | 'n' :: rest => readWord ['u', 'l', 'l'] none rest
  | rest => (reader rest).map fun (x, rest) => (some x, rest)

/-- An array of any values, inside `depth` further containers. -/
def readArray : Nat → JsonReader ε (List Json)
  | 0 => fun _ => .error .tooDeep
  | depth + 1 => fun cs =>
    match skipSpace cs with
    | '[' :: rest => readList (readValue depth) rest
    | _ => .error .mismatch

/-! ### Records -/

/-- A member with a known name. The reader is given how many containers may still be opened. -/
structure Field (ε σ : Type) where
  name : String
  read : Nat → JsonReader ε (σ → σ)

/-- A record being read: the fields met so far and what they made of the initial value. -/
structure Draft (σ : Type) where
  met : List String
  value : σ

def readField (fields : List (Field ε σ)) (depth : Nat) (d : Draft σ) : JsonReader ε (Draft σ) :=
  fun cs => do
    let (name, rest) ← readString cs
    match fields.find? fun f => f.name == name with
    | none =>
      match skipSpace rest with
      | ':' :: rest => (skipValue rest).map fun (_, rest) => (d, rest)
      | _ => .error .malformed
    | some f =>
      if d.met.contains name then .error (.repeated name)
      else
        match skipSpace rest with
        | ':' :: rest =>
          (f.read depth rest).map fun (update, rest) =>
            (⟨name :: d.met, update d.value⟩, rest)
        | _ => .error .malformed

/-- One item of the array form: the next field still to come. -/
def readPositional (depth : Nat) (d : List (Field ε σ) × σ) :
    JsonReader ε (List (Field ε σ) × σ) := fun cs =>
  match d.1 with
  | [] => .error .surplus
  | f :: later => (f.read depth cs).map fun (update, rest) => ((later, update d.2), rest)

/-- A record, by the updates its fields make to an initial value. -/
def readRecord (fields : List (Field ε σ)) (initial : σ) : Nat → JsonReader ε σ
  | 0 => fun _ => .error .tooDeep
  | depth + 1 => fun cs =>
    match skipSpace cs with
    | '[' :: rest =>
      (readContainer ']' (readPositional depth) (fields, initial) rest).map
        fun (d, rest) => (d.2, rest)
    | '\x7b' :: rest =>
      (readContainer '\x7d' (readField fields depth) ⟨[], initial⟩ rest).map
        fun (d, rest) => (d.value, rest)
    | _ => .error .mismatch

def parseRecord (fields : List (Field ε σ)) (initial : σ) (text : String) :
    Except (JsonFault ε) σ :=
  readAll (readRecord fields initial maxDepth) text

end KeywordRunner.Json
