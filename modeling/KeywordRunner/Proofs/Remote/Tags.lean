import KeywordRunner.Proofs.Remote.Arguments

/-!
# Proofs.Remote.Tags — what an argument text says, and which texts say the same

An argument text is a tag of two bytes and a payload without any escaping, yet no two values share
one: the tag tells the kind, and a handle ends at the first colon. `Denotes` says which texts stand
for which values. A text without a number that is not the one its value would be written as spells
its integer or its handle loosely, and that is the only way to differ.

* **`denotes_of_decodeArg`** — what is decoded is denoted.
* **`splitTag?_eq_none_iff`** — a tag is missing exactly if the text cannot be cut behind two bytes.
* **`tagged_texts_round_trip`** — from values to texts and back, and from texts to values and back.
-/

namespace KeywordRunner.RemoteValue

/-! ## Texts and the values they stand for -/

/-- An argument text and its value: a tag, and behind it what the tag asks for. -/
inductive Denotes : List Char → RemoteValue → Prop where
  | str (payload : List Char) : Denotes ('0' :: '1' :: payload) (.str (String.ofList payload))
  | int {numeral : List Char} {i : Int64} (hread : Signed.read64? numeral = some i) :
      Denotes ('0' :: '2' :: numeral) (.int i)
  | classRef (payload : List Char) :
      Denotes ('0' :: '3' :: payload) (.classRef (String.ofList payload))
  | object {numeral className : List Char} {i : Int64} (hcolon : ':' ∉ numeral)
      (hread : Signed.read64? numeral = some i) :
      Denotes ('0' :: '4' :: (numeral ++ ':' :: className))
        (.object ⟨i, String.ofList className, ∅⟩)
  | float {numeral : List Char} {x : Binary64} (hread : Literal.read? numeral = some x) :
      Denotes ('0' :: '5' :: numeral) (.float x)

/-- A text, an integer, a class or a handle: the values whose texts are exact. -/
def isExact : RemoteValue → Bool
  | .str _ | .int _ | .classRef _ | .object _ => true
  | .null | .bool _ | .float _ | .record _ | .list _ => false

/-- The integer or the handle of an argument text, as it stands there. -/
def numeral? : List Char → Option (List Char)
  | '0' :: '2' :: payload => some payload
  | '0' :: '4' :: payload => some (payload.takeWhile (· != ':'))
  | _ => none

variable {v : RemoteValue} {cs tag payload : List Char}

/-! ## Tags -/

theorem utf8ByteSize_ofList_cons (c : Char) (cs : List Char) :
    (String.ofList (c :: cs)).utf8ByteSize = c.utf8Size + (String.ofList cs).utf8ByteSize := by
  rw [String.ofList_cons, String.utf8ByteSize_append, String.utf8ByteSize_singleton]

/-- A tag is what fills two bytes, one character or two. -/
theorem splitTag?_eq_some_iff :
    splitTag? cs = some (tag, payload) ↔
      cs = tag ++ payload ∧ (String.ofList tag).utf8ByteSize = 2 := by
  constructor
  · intro h
    unfold splitTag? at h
    split at h
    · exact absurd h (by simp)
    · next c cs =>
      split at h
      · next hc =>
        cases h
        exact ⟨rfl, by rw [utf8ByteSize_ofList_cons, hc]; rfl⟩
      · split at h
        · next hc =>
          split at h
          · next d ds =>
            split at h
            · next hd =>
              cases h
              exact ⟨rfl, by rw [utf8ByteSize_ofList_cons, utf8ByteSize_ofList_cons, hc, hd]; rfl⟩
            · exact absurd h (by simp)
          · exact absurd h (by simp)
        · exact absurd h (by simp)
  · rintro ⟨rfl, hsize⟩
    match tag with
    | [] => exact absurd hsize (by decide)
    | [c] =>
      have hc : c.utf8Size = 2 := by
        rw [utf8ByteSize_ofList_cons] at hsize
        exact hsize
      exact if_pos hc
    | [c, d] =>
      have hsizes : c.utf8Size + (d.utf8Size + 0) = 2 := by
        rw [utf8ByteSize_ofList_cons, utf8ByteSize_ofList_cons] at hsize
        exact hsize
      have hcpos := c.utf8Size_pos
      have hdpos := d.utf8Size_pos
      exact splitTag?_digits (by omega) (by omega) payload
    | c :: d :: e :: tag =>
      have hcpos := c.utf8Size_pos
      have hdpos := d.utf8Size_pos
      have hepos := e.utf8Size_pos
      rw [utf8ByteSize_ofList_cons, utf8ByteSize_ofList_cons, utf8ByteSize_ofList_cons] at hsize
      omega

/-- A text with a tag can be cut behind its second byte, and one that can be cut there has a tag. -/
theorem exists_splitTag?_iff {arg : String} :
    (∃ tag payload, splitTag? arg.toList = some (tag, payload)) ↔
      (⟨2⟩ : String.Pos.Raw).IsValid arg := by
  rw [String.Pos.Raw.isValid_iff_exists_append]
  constructor
  · rintro ⟨tag, payload, h⟩
    obtain ⟨hcut, hsize⟩ := splitTag?_eq_some_iff.1 h
    refine ⟨String.ofList tag, String.ofList payload, ?_, ?_⟩
    · rw [← String.ofList_append, ← hcut, String.ofList_toList]
    · rw [String.rawEndPos, hsize]
  · rintro ⟨before, after, rfl, hend⟩
    refine ⟨before.toList, after.toList, splitTag?_eq_some_iff.2 ⟨String.toList_append, ?_⟩⟩
    rw [String.ofList_toList]
    exact (congrArg String.Pos.Raw.byteIdx hend).symm

/-- **A tag is missing exactly if the text cannot be cut behind its second byte**: it ends before,
or a character goes across. -/
theorem splitTag?_eq_none_iff {arg : String} :
    splitTag? arg.toList = none ↔
      arg.utf8ByteSize < 2 ∨ ¬(⟨2⟩ : String.Pos.Raw).IsValid arg := by
  have hcut : splitTag? arg.toList ≠ none → (⟨2⟩ : String.Pos.Raw).IsValid arg := by
    intro hne
    obtain ⟨⟨tag, payload⟩, hsplit⟩ := Option.ne_none_iff_exists'.1 hne
    exact exists_splitTag?_iff.1 ⟨tag, payload, hsplit⟩
  constructor
  · intro hnone
    refine Or.inr fun hvalid => ?_
    obtain ⟨tag, payload, hsplit⟩ := exists_splitTag?_iff.2 hvalid
    exact absurd (hnone.symm.trans hsplit) (by simp)
  · rintro (hshort | hinvalid)
    · exact not_not.1 fun hne => Nat.not_lt.2 (hcut hne).le_rawEndPos hshort
    · exact not_not.1 fun hne => hinvalid (hcut hne)

/-! ## From texts to values -/

/-- A handle and its class name are around a colon, and it is the first one. -/
theorem readHandle?_eq_some {o : ObjectRef} (h : readHandle? payload = some o) :
    ∃ numeral className, payload = numeral ++ ':' :: className ∧ ':' ∉ numeral ∧
      ∃ i, Signed.read64? numeral = some i ∧ o = ⟨i, String.ofList className, ∅⟩ := by
  unfold readHandle? at h
  rw [List.span_eq_takeWhile_dropWhile] at h
  have hwhole : payload.takeWhile (· != ':') ++ payload.dropWhile (· != ':') = payload :=
    List.takeWhile_append_dropWhile
  have hfree : ':' ∉ payload.takeWhile (· != ':') := fun hmem => by
    simpa using List.mem_takeWhile_imp hmem
  cases hrest : payload.dropWhile (· != ':') with
  | nil => exact absurd h (by simp [hrest])
  | cons c className =>
    have hc : c = ':' := by
      have hstop := List.head?_dropWhile_not (· != ':') payload
      simpa [hrest] using hstop
    subst hc
    rw [hrest] at h hwhole
    obtain ⟨i, hread, hi⟩ := Option.map_eq_some_iff.1 h
    exact ⟨_, className, hwhole.symm, hfree, i, hread, hi.symm⟩

/-- What is decoded is denoted. -/
theorem denotes_of_decodeArg {arg : String} (h : decodeArg arg = .ok v) : Denotes arg.toList v := by
  unfold decodeArg at h
  split at h
  · exact absurd h (by simp)
  · next tag payload hsplit =>
    rw [(splitTag?_eq_some_iff.1 hsplit).1]
    split at h
    · cases h
      exact .str payload
    · split at h
      · next i hread =>
        cases h
        exact .int hread
      · exact absurd h (by simp)
    · cases h
      exact .classRef payload
    · split at h
      · next o hread =>
        cases h
        obtain ⟨numeral, className, rfl, hcolon, i, hhash, rfl⟩ := readHandle?_eq_some hread
        exact .object hcolon hhash
      · exact absurd h (by simp)
    · split at h
      · next x hread =>
        cases h
        exact .float hread
      · exact absurd h (by simp)
    · exact absurd h (by simp)

/-- Nothing is decoded to a handle with attributes. -/
theorem bare_of_denotes (h : Denotes cs v) : v.bare = v := by
  cases h <;> rfl

theorem isExact_of_denotes (h : Denotes cs v) (htag : ¬"05".toList <+: cs) : v.isExact = true := by
  cases h with
  | float _ => exact absurd (List.prefix_append ['0', '5'] _) htag
  | _ => rfl

theorem numeral?_handle {numeral : List Char} (hcolon : ':' ∉ numeral) (className : List Char) :
    numeral? ('0' :: '4' :: (numeral ++ ':' :: className)) = some numeral := by
  have hfree : ∀ c ∈ numeral, (c != ':') = true := fun c hc =>
    bne_iff_ne.2 fun heq => hcolon (heq ▸ hc)
  show some ((numeral ++ ':' :: className).takeWhile (· != ':')) = some numeral
  rw [List.takeWhile_append_of_pos hfree, List.takeWhile_cons_of_neg (by decide), List.append_nil]

/-- What a text stands for is written as this text again, unless its numeral is loose. -/
theorem exists_encodeArg_of_denotes (h : Denotes cs v) (hexact : v.isExact = true) :
    ∃ text, v.encodeArg = .ok text ∧
      (text.toList = cs ↔ ∀ numeral, numeral? cs = some numeral → ¬Signed.IsLoose numeral) := by
  cases h with
  | str payload =>
    refine ⟨_, rfl, ?_⟩
    simp [numeral?]
  | classRef payload =>
    refine ⟨_, rfl, ?_⟩
    simp [numeral?]
  | @int numeral i hread =>
    refine ⟨_, rfl, ?_⟩
    have hwrite := Signed.write_eq_iff (Signed.read?_of_read64? hread)
    simp [numeral?, Signed.text64, hwrite]
  | @object numeral className i hcolon hread =>
    refine ⟨_, rfl, ?_⟩
    have hwrite := Signed.write_eq_iff (Signed.read?_of_read64? hread)
    rw [numeral?_handle hcolon]
    simp [Signed.text64, hwrite]
  | float _ => exact absurd hexact (by simp [isExact])

/-! ## Every outcome of reading -/

/-- Whatever a text is, it has no tag, or reading it ends in one of three ways. -/
theorem decodeArg_cases (arg : String) :
    (splitTag? arg.toList = none ∧ decodeArg arg = .error (.missingTag arg)) ∨
      ∃ tag payload, splitTag? arg.toList = some (tag, payload) ∧
        ((∃ v, decodeArg arg = .ok v) ∨
          decodeArg arg = .error (.unknownTag (String.ofList tag) arg) ∨
          ∃ kind, decodeArg arg = .error (.invalidPayload kind (String.ofList payload))) := by
  cases hsplit : splitTag? arg.toList with
  | none =>
    refine Or.inl ⟨rfl, ?_⟩
    rw [decodeArg, hsplit]
  | some cut =>
    obtain ⟨tag, payload⟩ := cut
    refine Or.inr ⟨tag, payload, rfl, ?_⟩
    cases hread : decodeArg arg with
    | ok v => exact Or.inl ⟨v, rfl⟩
    | error fault =>
      rw [decodeArg, hsplit] at hread
      dsimp only at hread
      split at hread
      · exact absurd hread (by simp)
      · split at hread
        · exact absurd hread (by simp)
        · cases hread
          exact Or.inr (Or.inr ⟨_, rfl⟩)
      · exact absurd hread (by simp)
      · split at hread
        · exact absurd hread (by simp)
        · cases hread
          exact Or.inr (Or.inr ⟨_, rfl⟩)
      · split at hread
        · exact absurd hread (by simp)
        · cases hread
          exact Or.inr (Or.inr ⟨_, rfl⟩)
      · cases hread
        exact Or.inr (Or.inl rfl)

/-- A missing tag is what is said of a text without one, and of no other. -/
theorem missingTag_iff {arg : String} :
    (∃ other, decodeArg arg = .error (.missingTag other)) ↔ splitTag? arg.toList = none := by
  rcases decodeArg_cases arg with ⟨hnone, hfault⟩ | ⟨tag, payload, hsplit, hread⟩
  · simp [hnone, hfault]
  · rcases hread with ⟨v, hv⟩ | hunknown | ⟨kind, hinvalid⟩
    · simp [hsplit, hv]
    · simp [hsplit, hunknown]
    · simp [hsplit, hinvalid]

/-! ## Round trips -/

/-- A value with an exact text comes back from it. -/
theorem exists_encodeArg_of_isExact (h : v.isExact = true) :
    ∃ text, v.encodeArg = .ok text ∧ decodeArg text = .ok v.bare := by
  have hsendable : v.isSendable = true := by
    cases v with
    | null | bool _ | float _ | record _ | list _ => exact absurd h (by simp [isExact])
    | str _ | int _ | classRef _ | object _ => rfl
  have hreads : v.ReadsBack := by
    rintro x rfl
    exact absurd h (by simp [isExact])
  obtain ⟨text, htext, hback⟩ := exists_encodeArg hsendable
  exact ⟨text, htext, hback hreads⟩

/-- **Tagged arguments come back in both directions.** A text, an integer, a class name or a handle
comes back from its text without the attributes of a handle, so only values that are equal without
them share a text. A text with a tag other than that of a number, if it is decoded at all, is
decoded to a value whose own text is decoded to it again; and the two texts differ exactly if the
first one writes its integer or its handle loosely. Every text is decoded or refused, and refused
for its tag exactly if it has fewer than two bytes or its second byte is not the end of a
character. -/
theorem tagged_texts_round_trip :
    (∀ v : RemoteValue, v.isExact = true →
      ∃ text, v.encodeArg = .ok text ∧ decodeArg text = .ok v.bare) ∧
    (∀ v w : RemoteValue, v.isExact = true → w.isExact = true → v.encodeArg = w.encodeArg →
      v.bare = w.bare) ∧
    (∀ (text : String) (v : RemoteValue), ¬"05".toList <+: text.toList →
      decodeArg text = .ok v →
        ∃ text', v.encodeArg = .ok text' ∧ decodeArg text' = .ok v ∧
          (text' ≠ text ↔
            ∃ numeral, numeral? text.toList = some numeral ∧ Signed.IsLoose numeral)) ∧
    ∀ text : String,
      ((∃ arg, decodeArg text = .error (.missingTag arg)) ↔
        text.utf8ByteSize < 2 ∨ ¬(⟨2⟩ : String.Pos.Raw).IsValid text) ∧
      (decodeArg text = .error (.missingTag text) ∨
        ∃ tag payload : String, text = tag ++ payload ∧ tag.utf8ByteSize = 2 ∧
          ((∃ v, decodeArg text = .ok v) ∨ decodeArg text = .error (.unknownTag tag text) ∨
            ∃ kind, decodeArg text = .error (.invalidPayload kind payload))) := by
  refine ⟨fun v hv => exists_encodeArg_of_isExact hv, fun v w hv hw htexts => ?_,
    fun text v htag hread => ?_, fun text => ⟨?_, ?_⟩⟩
  · obtain ⟨text, htext, hback⟩ := exists_encodeArg_of_isExact hv
    obtain ⟨text', htext', hback'⟩ := exists_encodeArg_of_isExact hw
    rw [htext, htext'] at htexts
    rw [Except.ok.inj htexts, hback'] at hback
    exact (Except.ok.inj hback).symm
  · have hdenotes := denotes_of_decodeArg hread
    have hexact := isExact_of_denotes hdenotes htag
    obtain ⟨text', htext', hback⟩ := exists_encodeArg_of_isExact hexact
    obtain ⟨_, hsame, hiff⟩ := exists_encodeArg_of_denotes hdenotes hexact
    cases Except.ok.inj (htext'.symm.trans hsame)
    rw [bare_of_denotes hdenotes] at hback
    refine ⟨text', htext', hback, ?_⟩
    rw [Ne, ← String.toList_inj, hiff]
    push Not
    rfl
  · rw [missingTag_iff, splitTag?_eq_none_iff]
  · rcases decodeArg_cases text with ⟨_, hfault⟩ | ⟨tag, payload, hsplit, hread⟩
    · exact Or.inl hfault
    · obtain ⟨hcut, hsize⟩ := splitTag?_eq_some_iff.1 hsplit
      refine Or.inr ⟨String.ofList tag, String.ofList payload, ?_, hsize, hread⟩
      rw [← String.ofList_append, ← hcut, String.ofList_toList]

/-- The least handle with colons in its class name, and a handle written as minus zero. -/
theorem tagged_texts_round_trip_handles :
    (∃ text, (RemoteValue.object ⟨-9223372036854775808, "Outer:Inner",
        (∅ : Table Json).insert "text" .null⟩).encodeArg = .ok text ∧
      decodeArg text = .ok (.object ⟨-9223372036854775808, "Outer:Inner", ∅⟩)) ∧
    decodeArg "04-0:a:b" = .ok (.object ⟨0, "a:b", ∅⟩) ∧
      ∃ text, (RemoteValue.object ⟨0, "a:b", ∅⟩).encodeArg = .ok text ∧
        decodeArg text = .ok (.object ⟨0, "a:b", ∅⟩) ∧ text ≠ "04-0:a:b" := by
  have hread : decodeArg "04-0:a:b" = .ok (.object ⟨0, "a:b", ∅⟩) := by rfl
  obtain ⟨hvalues, _, htexts, _⟩ := tagged_texts_round_trip
  obtain ⟨text, htext, hback, hdiffer⟩ := htexts "04-0:a:b" _ (by decide) hread
  exact ⟨hvalues _ rfl, hread, text, htext, hback, hdiffer.2 ⟨_, rfl, .minusZero []⟩⟩

end KeywordRunner.RemoteValue
