/-!
# Text.Utf8 — decoding bytes that may not be UTF-8

Decoding that never fails: every maximal ill-formed part (a lead byte with the continuation
bytes that could have followed it, or a single stray byte) becomes one replacement character.
On well-formed bytes this is ordinary UTF-8 decoding: `text_toUTF8` says that a text comes back
from its encoding.
-/

namespace KeywordRunner.Utf8

/-- What stands for bytes that encode no character. -/
def replacement : Char := Char.ofNat 0xFFFD

/--
What a lead byte announces: how many continuation bytes follow, the range that the first of them
must lie in (narrowed after `E0`, `ED`, `F0` and `F4`, so that overlong forms, surrogates and
values beyond the code space are ill-formed at their second byte), and its own payload bits.
-/
structure Lead where
  more : Nat
  low : Nat
  high : Nat
  bits : Nat

/-- The role of a byte at the start of a sequence; a stray byte announces nothing. -/
def lead? (b : Nat) : Option Lead :=
  if b < 0x80 then some ⟨0, 0, 0, b⟩
  else if b < 0xC2 then none
  else if b < 0xE0 then some ⟨1, 0x80, 0xBF, b % 32⟩
  else if b = 0xE0 then some ⟨2, 0xA0, 0xBF, b % 16⟩
  else if b = 0xED then some ⟨2, 0x80, 0x9F, b % 16⟩
  else if b < 0xF0 then some ⟨2, 0x80, 0xBF, b % 16⟩
  else if b = 0xF0 then some ⟨3, 0x90, 0xBF, b % 8⟩
  else if b < 0xF4 then some ⟨3, 0x80, 0xBF, b % 8⟩
  else if b = 0xF4 then some ⟨3, 0x80, 0x8F, b % 8⟩
  else none

/-- Continuation bytes of one sequence: the value when all are there, and what follows. -/
def continuation : Nat → Nat → Nat → Nat → List UInt8 → Option Nat × List UInt8
  | 0, _, _, acc, bs => (some acc, bs)
  | _ + 1, _, _, _, [] => (none, [])
  | n + 1, low, high, acc, b :: bs =>
    if low ≤ b.toNat ∧ b.toNat ≤ high then
      continuation n 0x80 0xBF (acc * 64 + b.toNat % 64) bs
    else (none, b :: bs)

theorem length_continuation_le (n low high acc : Nat) (bs : List UInt8) :
    (continuation n low high acc bs).2.length ≤ bs.length := by
  induction n generalizing low high acc bs with
  | zero => simp [continuation]
  | succ n ih =>
    cases bs with
    | nil => simp [continuation]
    | cons b bs =>
      simp only [continuation]
      split
      · exact Nat.le_trans (ih _ _ _ _) (by simp)
      · simp

/-- One character from a nonempty byte sequence, and what follows it. -/
def next (b : UInt8) (bs : List UInt8) : Char × List UInt8 :=
  match lead? b.toNat with
  | none => (replacement, bs)
  | some l =>
    match continuation l.more l.low l.high l.bits bs with
    | (some value, rest) => (Char.ofNat value, rest)
    | (none, rest) => (replacement, rest)

theorem length_next_le (b : UInt8) (bs : List UInt8) : (next b bs).2.length ≤ bs.length := by
  unfold next
  split
  · simp
  · next l _ =>
    have h := length_continuation_le l.more l.low l.high l.bits bs
    split <;> simp_all

/-- The characters of a byte sequence behind the ones in `acc`, which come latest first. -/
def decodeOnto (acc : List Char) : List UInt8 → List Char
  | [] => acc.reverse
  | b :: bs =>
    match h : next b bs with
    | (c, rest) =>
      have : rest.length ≤ bs.length := by
        have hle := length_next_le b bs
        rwa [h] at hle
      decodeOnto (c :: acc) rest
termination_by bs => bs.length

/-- The characters of a byte sequence, each ill-formed part replaced. -/
def decode (bs : List UInt8) : List Char := decodeOnto [] bs

/-- The text of a byte sequence: the one it encodes, or with each ill-formed part replaced. -/
def text (bytes : ByteArray) : String :=
  match String.fromUTF8? bytes with
  | some s => s
  | none => String.ofList (decode bytes.data.toList)

/-! ### Laws -/

/-- What a text is encoded as is decoded to that text. -/
@[simp] theorem text_toUTF8 (s : String) : text s.toUTF8 = s := by
  have h : String.fromUTF8? s.toUTF8 = some s := dif_pos s.isValidUTF8
  simp only [text, h]

end KeywordRunner.Utf8
