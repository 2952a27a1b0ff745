import KeywordRunner.Proofs.Numeral.Canonical
import KeywordRunner.Remote.Argument
import Mathlib.Data.List.TakeDrop

/-!
# Proofs.Remote.Arguments — tagged arguments come back

A value that can be an argument comes back from its text as it was, except that a handle leaves the
attributes that the device reported behind. A list of values has texts exactly when each of them
can be an argument.

* **`exists_encodeArg`** — one value and its text.
* **`encodeArgs_of_sendable`**, **`encodeArgs_of_unsendable`** — the two ways a list can end.
-/

namespace KeywordRunner

namespace RemoteValue

/-! ## One value -/

/-- Whether a value can be an argument. -/
def isSendable : RemoteValue → Bool
  | .str _ | .int _ | .float _ | .classRef _ | .object _ => true
  | .null | .bool _ | .record _ | .list _ => false

/-- What the device learns of a value: a handle without the attributes it reported itself. -/
def bare : RemoteValue → RemoteValue
  | .object o => .object { o with attrs := ∅ }
  | v => v

/-- Whether the number that a value may be is read back from its text. -/
def ReadsBack (v : RemoteValue) : Prop := ∀ x, v = .float x → Literal.read? x.text.toList = some x

variable {v : RemoteValue} {vs : List RemoteValue}

theorem splitTag?_digits {c d : Char} (hc : c.utf8Size = 1) (hd : d.utf8Size = 1)
    (payload : List Char) : splitTag? (c :: d :: payload) = some ([c, d], payload) := by
  have htwo : ¬c.utf8Size = 2 := by omega
  rw [splitTag?, if_neg htwo, if_pos hc]
  exact if_pos hd

/-- The handle ends at the first colon, whatever the class name holds. -/
theorem readHandle?_write (hash : Int64) (className : String) :
    readHandle? (Signed.write hash.toInt ++ ':' :: className.toList)
      = some ⟨hash, className, ∅⟩ := by
  have hhash : ∀ c ∈ Signed.write hash.toInt, (c != ':') = true := fun c hc =>
    bne_iff_ne.2 fun heq => Signed.colon_not_mem_write hash.toInt (heq ▸ hc)
  have hspan : (Signed.write hash.toInt ++ ':' :: className.toList).span (· != ':')
      = (Signed.write hash.toInt, ':' :: className.toList) := by
    rw [List.span_eq_takeWhile_dropWhile, List.takeWhile_append_of_pos hhash,
      List.dropWhile_append_of_pos hhash, List.takeWhile_cons_of_neg (by decide),
      List.dropWhile_cons_of_neg (by decide), List.append_nil]
  unfold readHandle?
  rw [hspan]
  dsimp only
  rw [Signed.read64?_write, Option.map_some, String.ofList_toList]

theorem encodeArg_of_unsendable (h : v.isSendable = false) :
    v.encodeArg = .error (.unsupported v.kind) := by
  cases v with
  | null | bool _ | record _ | list _ => rfl
  | str _ | int _ | float _ | classRef _ | object _ => exact absurd h (by simp [isSendable])

/-- **A value that can be an argument comes back from its text**, a number as far as numbers do. -/
theorem exists_encodeArg (h : v.isSendable = true) :
    ∃ text, v.encodeArg = .ok text ∧ (v.ReadsBack → decodeArg text = .ok v.bare) := by
  have hsize : '0'.utf8Size = 1 := rfl
  cases v with
  | null | bool _ | record _ | list _ => exact absurd h (by simp [isSendable])
  | str s =>
    refine ⟨_, rfl, fun _ => ?_⟩
    have htext : ("01" ++ s).toList = '0' :: '1' :: s.toList := String.toList_append
    rw [decodeArg, htext, splitTag?_digits hsize rfl]
    dsimp only
    rw [String.ofList_toList]
    rfl
  | classRef name =>
    refine ⟨_, rfl, fun _ => ?_⟩
    have htext : ("03" ++ name).toList = '0' :: '3' :: name.toList := String.toList_append
    rw [decodeArg, htext, splitTag?_digits hsize rfl]
    dsimp only
    rw [String.ofList_toList]
    rfl
  | int i =>
    refine ⟨_, rfl, fun _ => ?_⟩
    have htext : ("02" ++ Signed.text64 i).toList = '0' :: '2' :: Signed.write i.toInt := by
      simp [Signed.text64]
    rw [decodeArg, htext, splitTag?_digits hsize rfl]
    dsimp only
    rw [Signed.read64?_write]
    rfl
  | float x =>
    refine ⟨_, rfl, fun hreal => ?_⟩
    have htext : ("05" ++ x.text).toList = '0' :: '5' :: x.text.toList := String.toList_append
    rw [decodeArg, htext, splitTag?_digits hsize rfl]
    dsimp only
    rw [hreal x rfl]
    rfl
  | object o =>
    refine ⟨_, rfl, fun _ => ?_⟩
    have htext : ("04" ++ Signed.text64 o.hash ++ ":" ++ o.className).toList
        = '0' :: '4' :: (Signed.write o.hash.toInt ++ ':' :: o.className.toList) := by
      simp [Signed.text64]
    rw [decodeArg, htext, splitTag?_digits hsize rfl]
    dsimp only
    rw [readHandle?_write]
    rfl

/-! ## Lists of values -/

/-- If each value can be an argument, each comes back from its text, in order. -/
theorem encodeArgs_of_sendable (h : ∀ v ∈ vs, v.isSendable = true) :
    ∃ texts, encodeArgs vs = .ok texts ∧
      ((∀ v ∈ vs, v.ReadsBack) → texts.map decodeArg = vs.map fun v => .ok v.bare) := by
  induction vs with
  | nil => exact ⟨[], rfl, fun _ => rfl⟩
  | cons v vs ih =>
    obtain ⟨hv, hvs⟩ := List.forall_mem_cons.1 h
    obtain ⟨text, htext, hback⟩ := exists_encodeArg hv
    obtain ⟨texts, htexts, hbacks⟩ := ih hvs
    refine ⟨text :: texts, ?_, fun hreals => ?_⟩
    · rw [encodeArgs, htext, htexts]
      rfl
    · obtain ⟨hreal, hreals⟩ := List.forall_mem_cons.1 hreals
      rw [List.map_cons, List.map_cons, hback hreal, hbacks hreals]

/-- Otherwise the first one that cannot is the reason why the list has no texts. -/
theorem encodeArgs_of_unsendable {before after : List RemoteValue}
    (hbefore : ∀ u ∈ before, u.isSendable = true) (hv : v.isSendable = false) :
    encodeArgs (before ++ v :: after) = .error (.unsupported v.kind) := by
  induction before with
  | nil =>
    rw [List.nil_append, encodeArgs, encodeArg_of_unsendable hv]
    rfl
  | cons u before ih =>
    obtain ⟨hu, hbefore⟩ := List.forall_mem_cons.1 hbefore
    rw [List.cons_append, encodeArgs, ih hbefore]
    cases u with
    | null | bool _ | record _ | list _ => exact absurd hu (by simp [isSendable])
    | str _ | int _ | float _ | classRef _ | object _ => rfl

end RemoteValue

end KeywordRunner
