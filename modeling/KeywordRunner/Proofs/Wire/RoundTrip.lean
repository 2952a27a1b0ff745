import KeywordRunner.Proofs.Json.Records
import KeywordRunner.Proofs.Wire.Escape
import KeywordRunner.Wire.Frame

/-!
# Proofs.Wire.RoundTrip — messages come back from their frames

A message is printed as a record of five fields, and the record comes back when each field does. An
argument is inside two containers, the object and the array, so 125 levels are left of the 127 that
a reader admits. Whatever text a message was read from, its arguments are within that limit, and so
the message can be sent on.

* **`parse_toJson`** — the JSON text of a message is read as this message.
* **`args_fit_of_parse`** — the arguments of a message that was read can be written again.
* **`frame_round_trip`** — both for frames.
-/

namespace KeywordRunner.Wire

open Json (Ends Field write)

namespace Message

variable {rest : List Char}

/-! ## The fields -/

theorem readId_write (id : UInt64) (hends : Ends rest) :
    Json.readNullable (Json.readNatural (ε := CodeFault) (UInt64.size - 1))
        (write (Json.ofUInt64 id) ++ rest)
      = .ok (some id.toNat, rest) := by
  have hlt : id.toNat < UInt64.size := id.toNat_lt
  have hread := Json.readNatural_write (ε := CodeFault) (UInt64.size - 1)
    (i := WideInt.ofUInt64 id) ⟨Int.natCast_nonneg _, Int.ofNat_le.2 (Nat.le_pred_of_lt hlt)⟩ hends
  obtain ⟨numeral, hnumeral, _⟩ := JsonNumber.readsBack_int (WideInt.ofUInt64 id)
  obtain ⟨c, cs, hwrite, hc⟩ := Json.head_of_readNumeral? hnumeral
  have htext : write (Json.ofUInt64 id) = c :: cs := hwrite
  have htext' : write (.num (.int (WideInt.ofUInt64 id))) = c :: cs := hwrite
  rw [htext', List.cons_append] at hread
  rw [htext, List.cons_append]
  exact Json.readNullable_of_ne (Json.isSpace_of_numeral hc)
    (Json.ne_of_numeral hc (by decide) (by decide)) hread

/-- A code comes back as what it stands for. -/
theorem readCode_write {α : Type} {ofCode? : Nat → Option α} (fault : Nat → CodeFault) {n : Nat}
    {a : α} (hn : n ≤ 255) (h : ofCode? n = some a) (hends : Ends rest) :
    readCode ofCode? fault (write (natural n) ++ rest) = .ok (a, rest) := by
  have hval : (WideInt.ofUInt64 (UInt64.ofNat n)).val = n := by
    have hnat : (UInt64.ofNat n).toNat = n := by
      rw [UInt64.toNat_ofNat']
      omega
    exact congrArg Int.ofNat hnat
  have hread := Json.readNatural_write (ε := CodeFault) 255
    (i := WideInt.ofUInt64 (UInt64.ofNat n)) (by omega) hends
  rw [hval, Int.toNat_natCast] at hread
  unfold readCode
  show (Json.readNatural 255 (write (.num (.int (WideInt.ofUInt64 (UInt64.ofNat n)))) ++ rest)
    >>= _) = _
  rw [hread, Json.ok_bind]
  dsimp only
  rw [h]
  rfl

theorem readName_write (name : String) (rest : List Char) :
    Json.readNullable (Json.readString (ε := CodeFault)) (write (.str name) ++ rest)
      = .ok (some name, rest) := by
  have hread := Json.readString_write (ε := CodeFault) name rest
  have htext : write (.str name) ++ rest = Json.writeString name ++ rest := rfl
  rw [htext]
  rw [Json.writeString_append] at hread ⊢
  exact Json.readNullable_of_ne (by decide) (by decide) hread

theorem readArgs_write {args : List Json} {d : Nat} (hfits : ∀ j ∈ args, j.Fits d)
    (hreals : ∀ j ∈ args, ∀ n ∈ j.reals, n.ReadsBack) (rest : List Char) :
    Json.readNullable (Json.readArray (ε := CodeFault) (d + 1)) (write (.arr args) ++ rest)
      = .ok (some args, rest) := by
  have hread := Json.readArray_write (ε := CodeFault) hfits hreals rest
  obtain ⟨cs, htext⟩ : ∃ cs, write (.arr args) ++ rest = '[' :: cs := by
    cases args <;> exact ⟨_, rfl⟩
  rw [htext] at hread ⊢
  exact Json.readNullable_of_ne (by decide) (by decide) hread

/-- The members of a message, each with what reading it does to a message. -/
def updates (m : Message) : List ((String × Json) × (Message → Message)) := [
  (("msg_id", match m.id with
    | none => .null
    | some id => Json.ofUInt64 id), fun x => { x with id := m.id }),
  (("msg_type", natural m.type.code), fun x => { x with type := m.type }),
  (("version", natural m.version.code), fun x => { x with version := m.version }),
  (("name", .str m.name), fun x => { x with name := m.name }),
  (("args", .arr m.args), fun x => { x with args := m.args })]

theorem toJson_eq_updates (m : Message) : m.toJson = .obj (m.updates.map (·.1)) := rfl

theorem foldl_updates (m : Message) : m.updates.foldl (fun x u => u.2 x) blank = m := rfl

theorem names_updates (m : Message) :
    m.updates.map (·.1.1) = ["msg_id", "msg_type", "version", "name", "args"] := rfl

theorem code_le (t : MessageType) : t.code ≤ 255 := by cases t <;> decide

theorem version_code_le (v : ProtocolVersion) : v.code ≤ 255 := by cases v <;> decide

/-- Each field comes back by itself. -/
theorem read_updates {m : Message} {d : Nat} (hfits : ∀ j ∈ m.args, j.Fits d)
    (hreals : ∀ j ∈ m.args, ∀ n ∈ j.reals, n.ReadsBack) :
    ∀ u ∈ m.updates, ∃ f, fields.find? (fun f => f.name == u.1.1) = some f ∧
      ∀ rest, Ends rest → f.read (d + 1) (write u.1.2 ++ rest) = .ok (u.2, rest) := by
  simp only [updates, List.forall_mem_cons]
  refine ⟨⟨_, rfl, fun rest hends => ?_⟩, ⟨_, rfl, fun rest hends => ?_⟩,
    ⟨_, rfl, fun rest hends => ?_⟩, ⟨_, rfl, fun rest hends => ?_⟩,
    ⟨_, rfl, fun rest hends => ?_⟩, fun _ h => absurd h List.not_mem_nil⟩
  · cases m.id with
    | none => rfl
    | some id =>
      show (Json.readNullable (Json.readNatural (UInt64.size - 1)) _ >>= _) = _
      rw [readId_write id hends]
      show Except.ok ((fun x : Message => { x with id := some (UInt64.ofNat id.toNat) }), rest) = _
      rw [UInt64.ofNat_toNat]
  · show (readCode MessageType.ofCode? .messageType _ >>= _) = _
    rw [readCode_write _ (code_le m.type) (MessageType.ofCode?_code m.type) hends]
    rfl
  · show (readCode ProtocolVersion.ofCode? .protocolVersion _ >>= _) = _
    rw [readCode_write _ (version_code_le m.version) (ProtocolVersion.ofCode?_code m.version) hends]
    rfl
  · show (Json.readNullable Json.readString _ >>= _) = _
    rw [readName_write]
    rfl
  · show (Json.readNullable (Json.readArray (d + 1)) _ >>= _) = _
    rw [readArgs_write hfits hreals]
    rfl

/-- **A message comes back from its JSON text** when its arguments are nested no deeper than a
reader admits. -/
theorem parse_toJson {m : Message} (hfits : ∀ j ∈ m.args, j.Fits 125)
    (hreals : ∀ j ∈ m.args, ∀ n ∈ j.reals, n.ReadsBack) : parse m.toJson.compact = .ok m := by
  have hnodup : (m.updates.map (·.1.1)).Nodup := by
    rw [names_updates]
    decide
  have hne : m.updates ≠ [] := List.cons_ne_nil _ _
  have hread := Json.readRecord_write hne hnodup (read_updates hfits hreals) blank []
  rw [← toJson_eq_updates, foldl_updates, List.append_nil] at hread
  unfold parse Json.parseRecord Json.readAll
  show (Json.readRecord fields blank 127 m.toJson.compact.toList >>= _) = _
  rw [Json.compact, String.toList_ofList, hread]
  rfl

/-! ## What any text gives -/

/-- Each field keeps that the arguments are within the limit: only the last one sets them, and it
reads them from an array. -/
theorem field_keeps_args {d : Nat} : ∀ f ∈ fields, ∀ cs update rest,
    f.read (d + 1) cs = .ok (update, rest) →
      ∀ m : Message, (∀ j ∈ m.args, j.Fits d) → ∀ j ∈ (update m).args, j.Fits d := by
  simp only [fields, List.forall_mem_cons]
  refine ⟨?_, ?_, ?_, ?_, ?_, fun _ h => absurd h List.not_mem_nil⟩
  all_goals
    intro cs update rest hread m hm
    obtain ⟨⟨a, tail⟩, ha, hread⟩ := Json.bind_eq_ok hread
    cases hread
  · exact hm
  · exact hm
  · exact hm
  · exact hm
  · rcases Json.readNullable_eq_ok ha with rfl | ⟨args, cs', rfl, hargs⟩
    · exact fun _ h => absurd h List.not_mem_nil
    · exact Json.readArray_fits hargs

theorem args_fit_of_parse {text : String} {m : Message} (h : parse text = .ok m) :
    ∀ j ∈ m.args, j.Fits 125 := by
  obtain ⟨⟨x, rest⟩, hread, h⟩ := Json.bind_eq_ok h
  dsimp only at h
  split at h
  · cases h
    exact Json.readRecord_keeps (P := fun m => ∀ j ∈ m.args, j.Fits 125) field_keeps_args
      (fun _ h => absurd h List.not_mem_nil) hread
  · exact absurd h (by simp)

end Message

/-! ## Frames -/

/-- A frame without its line ending. -/
def frameLine (m : Message) : String := escape m.toJson.compact

theorem encodeFrame_eq (m : Message) : encodeFrame m = frameLine m ++ "\n" := rfl

theorem newline_not_mem_frameLine (m : Message) : '\n' ∉ (frameLine m).toList := by
  unfold frameLine escape
  rw [String.toList_ofList]
  exact newline_not_mem_escapeChars _

/-- The text of a frame is between the braces of an object, which escaping leaves alone. -/
theorem toList_frameLine (m : Message) :
    ∃ inside, (frameLine m).toList = '\x7b' :: (inside ++ ['\x7d']) := by
  obtain ⟨inside, hwrite⟩ : ∃ inside, write m.toJson = '\x7b' :: (inside ++ ['\x7d']) := by
    have hcons := Json.write_obj_cons (m.updates.map (·.1)).head! (m.updates.map (·.1)).tail []
    rw [List.append_nil] at hcons
    exact ⟨_, hcons.trans (congrArg _ (List.append_assoc _ _ _).symm)⟩
  refine ⟨escapeChars inside, ?_⟩
  unfold frameLine escape Json.compact
  rw [String.toList_ofList, String.toList_ofList, hwrite,
    escapeChars_other (by decide) (by decide), escapeChars_append]
  rfl

/-- The line of a frame has nothing at its ends that a reader drops. -/
theorem dropLineEnd_frameLine (m : Message) : dropLineEnd (frameLine m) = frameLine m := by
  obtain ⟨inside, hinside⟩ := toList_frameLine m
  unfold dropLineEnd
  rw [hinside, ← List.cons_append, Text.dropEnd_of_last _ _ (by decide), List.cons_append,
    ← hinside, String.ofList_toList]

theorem dropLineEnd_encodeFrame (m : Message) : dropLineEnd (encodeFrame m) = frameLine m := by
  have hdrop : dropLineEnd (frameLine m ++ "\n") = dropLineEnd (frameLine m) := by
    unfold dropLineEnd
    rw [String.toList_append, Text.dropEnd_append_of_all _ _ _ (by decide)]
  rw [encodeFrame_eq, hdrop, dropLineEnd_frameLine]

theorem trim_frameLine (m : Message) : Text.trim (frameLine m) = frameLine m := by
  obtain ⟨inside, hinside⟩ := toList_frameLine m
  rw [Text.trim, hinside, Text.trimChars_of_ends inside (by decide) (by decide), ← hinside,
    String.ofList_toList]

variable {m : Message}

theorem decodeFrame_of_dropLineEnd {line : String} (h : dropLineEnd line = frameLine m)
    (hfits : ∀ j ∈ m.args, j.Fits 125) (hreals : ∀ j ∈ m.args, ∀ n ∈ j.reals, n.ReadsBack) :
    decodeFrame line = .ok m := by
  unfold decodeFrame
  rw [h, frameLine, unescape_escape, Message.parse_toJson hfits hreals]
  rfl

theorem decodeFrame_frameLine (hfits : ∀ j ∈ m.args, j.Fits 125)
    (hreals : ∀ j ∈ m.args, ∀ n ∈ j.reals, n.ReadsBack) : decodeFrame (frameLine m) = .ok m :=
  decodeFrame_of_dropLineEnd (dropLineEnd_frameLine m) hfits hreals

theorem decodeFrame_encodeFrame (hfits : ∀ j ∈ m.args, j.Fits 125)
    (hreals : ∀ j ∈ m.args, ∀ n ∈ j.reals, n.ReadsBack) : decodeFrame (encodeFrame m) = .ok m :=
  decodeFrame_of_dropLineEnd (dropLineEnd_encodeFrame m) hfits hreals

theorem args_fit_of_decodeFrame {line : String} (h : decodeFrame line = .ok m) :
    ∀ j ∈ m.args, j.Fits 125 := by
  unfold decodeFrame at h
  cases hparse : Message.parse (unescape (dropLineEnd line)) with
  | error e => exact absurd h (by simp [hparse, Except.mapError])
  | ok m' =>
    rw [hparse] at h
    cases h
    exact Message.args_fit_of_parse hparse

/-- **Messages come back from their frames.** A frame is one line. A message whose arguments nest at
most 125 containers, their members in key order, is what its own frame is decoded to; and a message
that any line at all was decoded to has such arguments, so sending it on gives the same message
again. Of a number that is no integer it is asked that its text is read as this number. -/
theorem frame_round_trip :
    (∀ m : Message, ∃ line : String, encodeFrame m = line ++ "\n" ∧ '\n' ∉ line.toList) ∧
    (∀ m : Message, (∀ j ∈ m.args, j.depth ≤ 125 ∧ j.Canonical) →
      (∀ j ∈ m.args, ∀ n ∈ j.reals, n.ReadsBack) → decodeFrame (encodeFrame m) = .ok m) ∧
    ∀ (line : String) (m : Message), decodeFrame line = .ok m →
      (∀ j ∈ m.args, ∀ n ∈ j.reals, n.ReadsBack) → decodeFrame (encodeFrame m) = .ok m := by
  refine ⟨fun m => ?_, fun m hfits hreals => ?_, fun line m hline hreals => ?_⟩
  · exact ⟨frameLine m, encodeFrame_eq m, newline_not_mem_frameLine m⟩
  · exact decodeFrame_encodeFrame hfits hreals
  · exact decodeFrame_encodeFrame (args_fit_of_decodeFrame hline) hreals

/-- One and a half. -/
def threeHalves : JsonNumber := .real ⟨0x3FF8000000000000⟩ (by decide)

theorem readsBack_threeHalves : threeHalves.ReadsBack :=
  ⟨⟨false, ['1'], some ['5'], none⟩, by cbv, by cbv⟩

/-- The greatest id, escapes in the name and in a key, and a number that is no integer; and the same
number read from a line in another shape. -/
theorem frame_round_trip_escapes :
    decodeFrame (encodeFrame ⟨some 18446744073709551615, .result, .reflection, "50%n\n",
          [.num threeHalves, .obj [("%e", .arr []), ("b", .null)]]⟩)
        = .ok ⟨some 18446744073709551615, .result, .reflection, "50%n\n",
          [.num threeHalves, .obj [("%e", .arr []), ("b", .null)]]⟩ ∧
      decodeFrame (encodeFrame ⟨none, .call, .plain, "", [.num threeHalves]⟩)
        = .ok ⟨none, .call, .plain, "", [.num threeHalves]⟩ := by
  have hreals : ∀ n ∈ [threeHalves], n.ReadsBack :=
    fun n hn => List.mem_singleton.1 hn ▸ readsBack_threeHalves
  constructor
  · refine frame_round_trip.2.1 _ ?_ ?_
    · simp only [List.forall_mem_cons]
      refine ⟨⟨by decide, trivial⟩, ⟨by decide, ?_, trivial, trivial, trivial⟩,
        fun _ h => absurd h List.not_mem_nil⟩
      exact List.pairwise_pair.2 (by decide)
    · simp only [List.forall_mem_cons]
      exact ⟨hreals, fun _ h => absurd h List.not_mem_nil, fun _ h => absurd h List.not_mem_nil⟩
  · refine frame_round_trip.2.2
      "\x7b\"args\": [1.5], \"skip\": \x7b\x7d, \"name\": null\x7d\r" _ (by cbv) ?_
    exact fun j hj => List.mem_singleton.1 hj ▸ hreals

end KeywordRunner.Wire
