import KeywordRunner.Proofs.Wire.RoundTrip
import KeywordRunner.Wire.FrameBuffer

/-!
# Proofs.Wire.Stream — how a stream is cut does not matter

`cut` divides a whole stream into its lines, and `cut_append` says how that goes on when more bytes
come. A buffer holds the bytes after the last line taken, so what it gives is told by the lines of
what it holds: `nextLine_of_texts` and `nextMessage_of_verdicts` are one step, and `takePieces_eq`
follows by induction over the pieces. The size limit is met when no line ending is there, and then
the bytes that wait are the beginning of a line of the stream.

* **`takePieces_eq`** — every line that is not blank gives one result, and the rest is kept.
* **`stream_cut_anyhow`** — the same for any division of a stream, and for frames in a row.
-/

namespace KeywordRunner.Wire

/-! ## The lines of a stream -/

section Lines

/-- The complete lines of a stream, without their endings, and what comes after the last one. -/
def cut : List UInt8 → List (List UInt8) × List UInt8
  | [] => ([], [])
  | b :: bs =>
    if b = delimiter then ([] :: (cut bs).1, (cut bs).2)
    else
      match cut bs with
      | ([], rest) => ([], b :: rest)
      | (l :: ls, rest) => ((b :: l) :: ls, rest)

/-- Lines with their endings, and a rest behind them. -/
def joined (ls : List (List UInt8)) (rest : List UInt8) : List UInt8 :=
  (ls.flatMap fun l => l ++ [delimiter]) ++ rest

variable {l rest : List UInt8} {ls : List (List UInt8)}

theorem joined_nil (rest : List UInt8) : joined [] rest = rest := rfl

theorem joined_cons (l : List UInt8) (ls : List (List UInt8)) (rest : List UInt8) :
    joined (l :: ls) rest = l ++ delimiter :: joined ls rest := by
  unfold joined
  rw [List.flatMap_cons, List.append_assoc, List.append_assoc, List.singleton_append]

theorem joined_append (ls : List (List UInt8)) (rest more : List UInt8) :
    joined ls rest ++ more = joined ls (rest ++ more) := List.append_assoc _ _ _

theorem joined_lines_append (ls ls' : List (List UInt8)) (rest : List UInt8) :
    joined (ls ++ ls') rest = joined ls (joined ls' rest) := by
  rw [joined, List.flatMap_append, List.append_assoc]
  rfl

theorem cut_of_not_mem (h : delimiter ∉ rest) : cut rest = ([], rest) := by
  induction rest with
  | nil => rfl
  | cons b bs ih =>
    rw [List.mem_cons, not_or] at h
    rw [cut, if_neg (Ne.symm h.1), ih h.2]

theorem cut_line (h : delimiter ∉ l) (bs : List UInt8) :
    cut (l ++ delimiter :: bs) = (l :: (cut bs).1, (cut bs).2) := by
  induction l with
  | nil =>
    rw [List.nil_append, cut, if_pos rfl]
  | cons b l ih =>
    rw [List.mem_cons, not_or] at h
    rw [List.cons_append, cut, if_neg (Ne.symm h.1), ih h.2]

/-- Lines stay what they are, whatever comes behind them. -/
theorem cut_joined (h : ∀ l ∈ ls, delimiter ∉ l) (bs : List UInt8) :
    cut (joined ls bs) = (ls ++ (cut bs).1, (cut bs).2) := by
  induction ls with
  | nil => rfl
  | cons l ls ih =>
    obtain ⟨hl, hls⟩ := List.forall_mem_cons.1 h
    rw [joined_cons, cut_line hl, ih hls]
    rfl

theorem cut_joined_rest (h : ∀ l ∈ ls, delimiter ∉ l) (hrest : delimiter ∉ rest) :
    cut (joined ls rest) = (ls, rest) := by
  rw [cut_joined h, cut_of_not_mem hrest, List.append_nil]

theorem delimiter_not_mem_cons {b : UInt8} {bs : List UInt8} (hb : b ≠ delimiter)
    (h : delimiter ∉ bs) : delimiter ∉ b :: bs := fun hmem =>
  (List.mem_cons.1 hmem).elim (fun heq => hb heq.symm) h

theorem delimiter_not_mem_cut (bs : List UInt8) :
    (∀ l ∈ (cut bs).1, delimiter ∉ l) ∧ delimiter ∉ (cut bs).2 := by
  induction bs with
  | nil => exact ⟨fun _ h => absurd h List.not_mem_nil, List.not_mem_nil⟩
  | cons b bs ih =>
    rw [cut]
    split
    · exact ⟨List.forall_mem_cons.2 ⟨List.not_mem_nil, ih.1⟩, ih.2⟩
    · next hb =>
      -- the byte belongs to the rest, or to the first of the lines behind it
      split
      · next rest heq =>
        rw [heq] at ih
        exact ⟨ih.1, delimiter_not_mem_cons hb ih.2⟩
      · next l ls rest heq =>
        rw [heq] at ih
        obtain ⟨hl, hls⟩ := List.forall_mem_cons.1 ih.1
        exact ⟨List.forall_mem_cons.2 ⟨delimiter_not_mem_cons hb hl, hls⟩, ih.2⟩

theorem joined_cut (bs : List UInt8) : joined (cut bs).1 (cut bs).2 = bs := by
  induction bs with
  | nil => rfl
  | cons b bs ih =>
    rw [cut]
    split
    · next hb =>
      rw [joined_cons, List.nil_append, ih, hb]
    · split
      · next rest heq =>
        rw [heq] at ih
        exact congrArg (b :: ·) ih
      · next l ls rest heq =>
        rw [heq, joined_cons] at ih
        rw [joined_cons, List.cons_append, ih]

/-- Cutting goes on behind the last line ending. -/
theorem cut_append (as bs : List UInt8) :
    cut (as ++ bs) = ((cut as).1 ++ (cut ((cut as).2 ++ bs)).1, (cut ((cut as).2 ++ bs)).2) := by
  obtain ⟨hlines, _⟩ := delimiter_not_mem_cut as
  have hsplit : as ++ bs = joined (cut as).1 ((cut as).2 ++ bs) := by
    rw [← joined_append, joined_cut]
  rw [hsplit, cut_joined hlines]

/-- The beginning of a stream without a line ending is the beginning of its first line, or of its
rest when there is none. -/
theorem length_le_of_cut_append (h : delimiter ∉ rest) (bs : List UInt8) :
    (∃ l ∈ (cut (rest ++ bs)).1, rest.length ≤ l.length) ∨
      (cut (rest ++ bs)).1 = [] ∧ (cut (rest ++ bs)).2 = rest ++ bs := by
  obtain ⟨hlines, hlast⟩ := delimiter_not_mem_cut bs
  have hjoined := joined_cut bs
  -- it depends on whether a line ending comes behind it
  cases hcut : (cut bs).1 with
  | nil =>
    rw [hcut, joined_nil] at hjoined
    rw [hjoined] at hlast
    have hnot : delimiter ∉ rest ++ bs := fun hmem => (List.mem_append.1 hmem).elim h hlast
    rw [cut_of_not_mem hnot]
    exact Or.inr ⟨rfl, rfl⟩
  | cons l ls =>
    rw [hcut, joined_cons] at hjoined
    have hnot : delimiter ∉ rest ++ l := fun hmem =>
      (List.mem_append.1 hmem).elim h (hlines l (hcut ▸ List.mem_cons_self))
    rw [← hjoined, ← List.append_assoc, cut_line hnot]
    refine Or.inl ⟨rest ++ l, List.mem_cons_self, ?_⟩
    rw [List.length_append]
    exact Nat.le_add_right _ _

/-! ## What a line gives -/

/-- The text of a line, without blanks at its ends. -/
def lineText (l : List UInt8) : String := Text.trim (Utf8.text l.toByteArray)

/-- The text of a line that is not blank. -/
def lineText? (l : List UInt8) : Option String :=
  if lineText l = "" then none else some (lineText l)

/-- What a line gives: nothing when it is blank. -/
def verdict? (l : List UInt8) : Option (Except FrameFault Message) :=
  if lineText l = "" then none else some (decodeFrame (lineText l))

theorem text_of_lineText? {l : List UInt8} {t : String} (h : lineText? l = some t) :
    lineText l = t := by
  unfold lineText? at h
  split at h
  · exact absurd h (by simp)
  · exact Option.some.inj h

theorem verdict?_eq (l : List UInt8) : verdict? l = (lineText? l).map decodeFrame := by
  unfold verdict? lineText?
  split <;> rfl

theorem verdict?_of_text {t : String} (h : lineText l = t) (ht : t ≠ "") :
    verdict? l = some (decodeFrame t) := by
  rw [verdict?, h, if_neg ht]

/-- The lines of a stream give what their texts are decoded to. -/
theorem verdicts_eq (ls : List (List UInt8)) :
    ls.filterMap verdict? = (ls.filterMap lineText?).map decodeFrame := by
  rw [List.map_filterMap]
  exact congrArg (List.filterMap · ls) (funext verdict?_eq)

/-- The first line that is not blank, and the lines behind it. -/
def firstLine? : List (List UInt8) → Option (String × List (List UInt8))
  | [] => none
  | l :: ls => if lineText l = "" then firstLine? ls else some (lineText l, ls)

theorem texts_of_firstLine?_none (h : firstLine? ls = none) : ls.filterMap lineText? = [] := by
  induction ls with
  | nil => rfl
  | cons l ls ih =>
    rw [firstLine?] at h
    split at h
    · next hblank =>
      have htext : lineText? l = none := if_pos hblank
      rw [List.filterMap_cons_none htext, ih h]
    · exact absurd h (by simp)

theorem texts_of_firstLine?_some {t : String} {later : List (List UInt8)}
    (h : firstLine? ls = some (t, later)) :
    ls.filterMap lineText? = t :: later.filterMap lineText? ∧ later ⊆ ls := by
  induction ls with
  | nil => exact absurd h (by simp [firstLine?])
  | cons l ls ih =>
    rw [firstLine?] at h
    split at h
    · next hblank =>
      have htext : lineText? l = none := if_pos hblank
      obtain ⟨htexts, hsub⟩ := ih h
      rw [List.filterMap_cons_none htext, htexts]
      exact ⟨rfl, fun x hx => List.mem_cons_of_mem l (hsub hx)⟩
    · next hne =>
      obtain ⟨rfl, rfl⟩ := Prod.mk.inj (Option.some.inj h)
      have htext : lineText? l = some (lineText l) := if_neg hne
      rw [List.filterMap_cons_some htext]
      exact ⟨rfl, fun x hx => List.mem_cons_of_mem l hx⟩

theorem args_fit_of_verdict? {m : Message} (h : verdict? l = some (.ok m)) :
    ∀ j ∈ m.args, j.Fits 125 := by
  unfold verdict? at h
  split at h
  · exact absurd h (by simp)
  · exact args_fit_of_decodeFrame (Option.some.inj h)

end Lines

/-! ## One step of the buffer -/

namespace FrameBuffer

/-- The bytes that a buffer holds. -/
def waiting (b : FrameBuffer) : List UInt8 := b.bytes.data.toList

def ofList (bs : List UInt8) : FrameBuffer := ⟨bs.toByteArray⟩

theorem waiting_ofList (bs : List UInt8) : (ofList bs).waiting = bs := List.toList_data_toByteArray

theorem toByteArray_toList (bytes : ByteArray) : bytes.data.toList.toByteArray = bytes :=
  ByteArray.ext (List.data_toByteArray.trans Array.toArray_toList)

theorem ofList_waiting (b : FrameBuffer) : ofList b.waiting = b :=
  congrArg FrameBuffer.mk (toByteArray_toList b.bytes)

theorem waiting_feed (b : FrameBuffer) (data : ByteArray) :
    (b.feed data).waiting = b.waiting ++ data.data.toList := ByteArray.toList_data_append

theorem size_eq_length (b : FrameBuffer) : b.size = b.waiting.length := rfl

theorem waiting_dropBytes (bytes : ByteArray) (start : Nat) :
    (dropBytes bytes start).waiting = bytes.data.toList.drop start := by
  unfold waiting dropBytes
  rw [ByteArray.data_extract, Array.toList_extract, List.extract_eq_take_drop]
  exact List.take_of_length_le (by simp)

theorem dropBytes_eq (bytes : ByteArray) (start : Nat) :
    dropBytes bytes start = ofList (bytes.data.toList.drop start) := by
  rw [← waiting_dropBytes, ofList_waiting]

/-- The bytes from a position on are a line and what is behind it, or there is no line ending. -/
theorem lineEnd?_spec (bytes : ByteArray) (start : Nat) :
    match lineEnd? bytes start with
    | none => delimiter ∉ bytes.data.toList.drop start
    | some pos => ∃ l, delimiter ∉ l ∧ pos = start + l.length ∧
        bytes.data.toList.drop start = l ++ delimiter :: bytes.data.toList.drop (pos + 1) := by
  fun_induction lineEnd? bytes start with
  | case1 start hstart heq =>
    refine ⟨[], List.not_mem_nil, rfl, ?_⟩
    rw [List.nil_append, ← heq]
    exact List.drop_eq_getElem_cons hstart
  | case2 start hstart hne ih =>
    have hdrop : bytes.data.toList.drop start
        = bytes[start] :: bytes.data.toList.drop (start + 1) := List.drop_eq_getElem_cons hstart
    rw [hdrop]
    split at ih
    · exact delimiter_not_mem_cons hne ih
    · obtain ⟨l, hl, hpos, hrest⟩ := ih
      refine ⟨bytes[start] :: l, delimiter_not_mem_cons hne hl, ?_, ?_⟩
      · rw [hpos, List.length_cons]
        omega
      · rw [hrest, List.cons_append]
  | case3 start hstart =>
    have hdrop : bytes.data.toList.drop start = [] :=
      List.drop_eq_nil_of_le (Nat.le_of_not_lt hstart)
    rw [hdrop]
    exact List.not_mem_nil

theorem extract_eq_line {bytes : ByteArray} {start : Nat} {l more : List UInt8}
    (h : bytes.data.toList.drop start = l ++ more) :
    bytes.extract start (start + l.length) = l.toByteArray := by
  apply ByteArray.ext
  apply Array.toList_inj.1
  rw [ByteArray.data_extract, Array.toList_extract, List.extract_eq_take_drop, h,
    Nat.add_sub_cancel_left, List.take_left, List.toList_data_toByteArray]

theorem line_of_lineEnd? {bytes : ByteArray} {start pos : Nat}
    (h : lineEnd? bytes start = some pos) :
    ∃ l, delimiter ∉ l ∧ bytes.extract start pos = l.toByteArray ∧
      bytes.data.toList.drop start = l ++ delimiter :: bytes.data.toList.drop (pos + 1) := by
  have hspec := lineEnd?_spec bytes start
  rw [h] at hspec
  obtain ⟨l, hl, rfl, hrest⟩ := hspec
  exact ⟨l, hl, extract_eq_line hrest, hrest⟩

/-- What `scan` finds, told by the lines from its position on. -/
theorem scan_eq (bytes : ByteArray) (start : Nat) :
    scan bytes start =
      match firstLine? (cut (bytes.data.toList.drop start)).1 with
      | none => (none, ofList (cut (bytes.data.toList.drop start)).2)
      | some (t, ls) => (some t, ofList (joined ls (cut (bytes.data.toList.drop start)).2)) := by
  fun_induction scan bytes start with
  | case1 start hend =>
    have hspec := lineEnd?_spec bytes start
    rw [hend] at hspec
    rw [cut_of_not_mem hspec, dropBytes_eq]
    rfl
  | case2 start pos hend text hblank hbounds ih =>
    obtain ⟨l, hl, hline, hrest⟩ := line_of_lineEnd? hend
    have htext : lineText l = "" := by
      rw [lineText, ← hline]
      exact hblank
    rw [ih, hrest, cut_line hl, firstLine?, if_pos htext]
  | case3 start pos hend text hne =>
    obtain ⟨l, hl, hline, hrest⟩ := line_of_lineEnd? hend
    have htext : lineText l = text := by
      rw [lineText, ← hline]
    rw [hrest, cut_line hl, firstLine?, if_neg (htext ▸ hne), htext]
    dsimp only
    rw [joined_cut, dropBytes_eq]

/-- What the complete lines of a buffer give. -/
def verdicts (b : FrameBuffer) : List (Except FrameFault Message) :=
  (cut b.waiting).1.filterMap verdict?

/-- The texts of the complete lines of a buffer. -/
def texts (b : FrameBuffer) : List String := (cut b.waiting).1.filterMap lineText?

theorem verdicts_eq_texts (b : FrameBuffer) : b.verdicts = b.texts.map decodeFrame :=
  verdicts_eq _

/-- What a buffer holds behind its last line. -/
def rest (b : FrameBuffer) : List UInt8 := (cut b.waiting).2

theorem nextLine_eq (b : FrameBuffer) :
    b.nextLine =
      match firstLine? (cut b.waiting).1 with
      | none =>
        if (ofList b.rest).isOverflow then (.error (.tooLarge b.rest.length), empty)
        else (.ok none, ofList b.rest)
      | some (t, ls) => (.ok (some t), ofList (joined ls b.rest)) := by
  have hscan := scan_eq b.bytes 0
  have hwaiting : b.bytes.data.toList = b.waiting := rfl
  rw [List.drop_zero, hwaiting] at hscan
  unfold nextLine
  rw [hscan]
  cases firstLine? (cut b.waiting).1 with
  | none =>
    dsimp only
    rw [size_eq_length, waiting_ofList]
    rfl
  | some found => rfl

theorem nextLine_of_none {b : FrameBuffer} (h : b.texts = []) :
    b.nextLine =
      if maxFrameSize < b.rest.length then (.error (.tooLarge b.rest.length), empty)
      else (.ok none, ofList b.rest) := by
  have hover : (ofList b.rest).isOverflow = decide (maxFrameSize < b.rest.length) := by
    rw [isOverflow, size_eq_length, waiting_ofList]
  rw [nextLine_eq]
  cases hfirst : firstLine? (cut b.waiting).1 with
  | none =>
    show (if (ofList b.rest).isOverflow = true then _ else _) = _
    rw [hover]
    simp only [decide_eq_true_eq]
  | some found =>
    have hcons := (texts_of_firstLine?_some hfirst).1
    exact absurd (hcons.symm.trans h) (List.cons_ne_nil _ _)

/-- The first line that is not blank is taken, and the others are left. -/
theorem nextLine_of_texts {b : FrameBuffer} {t : String} {ts : List String}
    (h : b.texts = t :: ts) :
    ∃ b', b.nextLine = (.ok (some t), b') ∧ b'.texts = ts ∧ b'.rest = b.rest := by
  obtain ⟨hlines, hrest⟩ := delimiter_not_mem_cut b.waiting
  cases hfirst : firstLine? (cut b.waiting).1 with
  | none =>
    have hnil := texts_of_firstLine?_none hfirst
    exact absurd (hnil.symm.trans h) (List.cons_ne_nil _ _).symm
  | some found =>
    obtain ⟨t', later⟩ := found
    obtain ⟨hcons, hsub⟩ := texts_of_firstLine?_some hfirst
    obtain ⟨rfl, rfl⟩ := List.cons.inj (hcons.symm.trans h)
    have hcut : cut (ofList (joined later b.rest)).waiting = (later, b.rest) := by
      rw [waiting_ofList]
      exact cut_joined_rest (fun l hl => hlines l (hsub hl)) hrest
    refine ⟨ofList (joined later b.rest), ?_, ?_, ?_⟩
    · rw [nextLine_eq, hfirst]
    · rw [texts, hcut]
    · show (cut _).2 = _
      rw [hcut]

/-- There is no line, or there is an answer and bytes have been used up. -/
theorem nextLine_cases (b : FrameBuffer) :
    (∃ rest, b.nextLine = (.ok none, rest)) ∨
      ∃ v rest, b.nextLine = (Except.map some v, rest) ∧ rest.size < b.size := by
  have hlt := size_nextLine_lt (b := b)
  rcases hnext : b.nextLine with ⟨_ | _ | t, rest⟩
  · refine Or.inr ⟨.error _, rest, rfl, ?_⟩
    rw [hnext] at hlt
    exact hlt (by simp)
  · exact Or.inl ⟨rest, rfl⟩
  · refine Or.inr ⟨.ok t, rest, rfl, ?_⟩
    rw [hnext] at hlt
    exact hlt (by simp)

/-- A line that is there, or a fault, is taken and decoded. -/
theorem nextMessage_of_line {b rest : FrameBuffer} {v : Except FrameFault String}
    (h : b.nextLine = (v.map some, rest)) :
    b.nextMessage = ((v >>= decodeFrame).map some, rest) := by
  unfold nextMessage
  rw [h]
  cases v with
  | error e => rfl
  | ok t =>
    rw [Json.ok_bind]
    dsimp only [Except.map]
    cases decodeFrame t <;> rfl

theorem nextMessage_of_none {b : FrameBuffer} (h : b.verdicts = [])
    (hsize : b.rest.length ≤ maxFrameSize) : b.nextMessage = (.ok none, ofList b.rest) := by
  rw [verdicts_eq_texts, List.map_eq_nil_iff] at h
  unfold nextMessage
  rw [nextLine_of_none h, if_neg (Nat.not_lt.2 hsize)]

theorem nextMessage_of_overflow {b : FrameBuffer} (h : b.verdicts = [])
    (hsize : maxFrameSize < b.rest.length) :
    b.nextMessage = (.error (.tooLarge b.rest.length), empty) := by
  rw [verdicts_eq_texts, List.map_eq_nil_iff] at h
  unfold nextMessage
  rw [nextLine_of_none h, if_pos hsize]

/-- **The first line that gives something is taken**, and the others are left. -/
theorem nextMessage_of_verdicts {b : FrameBuffer} {v : Except FrameFault Message}
    {vs : List (Except FrameFault Message)} (h : b.verdicts = v :: vs) :
    ∃ b', b.nextMessage = (v.map some, b') ∧ b'.verdicts = vs ∧ b'.rest = b.rest := by
  rw [verdicts_eq_texts] at h
  obtain ⟨t, ts, htexts, rfl, rfl⟩ := List.map_eq_cons_iff.1 h
  obtain ⟨b', hnext, hlater, hrest⟩ := nextLine_of_texts htexts
  have hmessage := nextMessage_of_line (v := .ok t) hnext
  rw [Json.ok_bind] at hmessage
  refine ⟨b', hmessage, ?_, hrest⟩
  rw [verdicts_eq_texts, hlater]

/-! ## All that a buffer has -/

/-- Takes one message after the other, whether it can be decoded or not, until there is none. -/
def takeAll (b : FrameBuffer) : List (Except FrameFault Message) × FrameBuffer :=
  match h : b.nextMessage with
  | (.ok none, rest) => ([], rest)
  | (.ok (some m), rest) =>
    have : rest.size < b.size := by
      have := size_nextMessage_lt (b := b) (by simp [h])
      simpa [h] using this
    let (found, last) := rest.takeAll
    (.ok m :: found, last)
  | (.error e, rest) =>
    have : rest.size < b.size := by
      have := size_nextMessage_lt (b := b) (by simp [h])
      simpa [h] using this
    let (found, last) := rest.takeAll
    (.error e :: found, last)
termination_by b.size

theorem takeAll_of_none {b rest : FrameBuffer} (h : b.nextMessage = (.ok none, rest)) :
    b.takeAll = ([], rest) := by
  rw [takeAll]
  split <;> simp_all

theorem takeAll_of_some {b rest : FrameBuffer} {v : Except FrameFault Message}
    (h : b.nextMessage = (v.map some, rest)) :
    b.takeAll = (v :: rest.takeAll.1, rest.takeAll.2) := by
  rw [takeAll]
  cases v <;> split <;> simp_all [Except.map]

theorem takeAll_eq {b : FrameBuffer} (hsize : b.rest.length ≤ maxFrameSize) :
    b.takeAll = (b.verdicts, ofList b.rest) := by
  -- by the results that are still to come; the rest stays the same all along
  generalize hverdicts : b.verdicts = vs
  induction vs generalizing b with
  | nil => exact takeAll_of_none (nextMessage_of_none hverdicts hsize)
  | cons v vs ih =>
    obtain ⟨b', hnext, hlater, hrest⟩ := nextMessage_of_verdicts hverdicts
    rw [takeAll_of_some hnext, ih (hrest ▸ hsize) hlater, hrest]

/-- Feeds a buffer the pieces of a stream, and takes all it has after each of them. -/
def takePieces (b : FrameBuffer) : List ByteArray → List (Except FrameFault Message) × FrameBuffer
  | [] => ([], b)
  | p :: ps =>
    let (found, b) := (b.feed p).takeAll
    let (later, b) := b.takePieces ps
    (found ++ later, b)

/-! ## All pieces of a stream -/

/-- The pieces of a stream in a row. -/
def stream (pieces : List ByteArray) : List UInt8 := pieces.flatMap fun p => p.data.toList

/-- Neither a line nor the rest is longer than a frame may be. -/
def Sized (bs : List UInt8) : Prop :=
  (∀ l ∈ (cut bs).1, l.length ≤ maxFrameSize) ∧ (cut bs).2.length ≤ maxFrameSize

/-- What waits at any time is the beginning of a line or of the rest, so it is not too long. -/
theorem Sized.waiting_le {as bs : List UInt8} (h : Sized (as ++ bs)) :
    (cut as).2.length ≤ maxFrameSize := by
  rw [Sized, cut_append] at h
  obtain ⟨hlines, hrest⟩ := h
  rcases length_le_of_cut_append (delimiter_not_mem_cut as).2 bs with ⟨l, hl, hle⟩ | ⟨_, heq⟩
  · exact Nat.le_trans hle (hlines l (List.mem_append_right _ hl))
  · rw [heq, List.length_append] at hrest
    exact Nat.le_trans (Nat.le_add_right _ _) hrest

theorem Sized.later {as bs : List UInt8} (h : Sized (as ++ bs)) : Sized ((cut as).2 ++ bs) := by
  rw [Sized, cut_append] at h
  exact ⟨fun l hl => h.1 l (List.mem_append_right _ hl), h.2⟩

/-- **Every line that is not blank gives one result, and the rest is kept**, whatever pieces the
stream comes in. -/
theorem takePieces_eq {pieces : List ByteArray} {b : FrameBuffer} (hb : delimiter ∉ b.waiting)
    (hsized : Sized (b.waiting ++ stream pieces)) :
    b.takePieces pieces =
      ((cut (b.waiting ++ stream pieces)).1.filterMap verdict?,
        ofList (cut (b.waiting ++ stream pieces)).2) := by
  induction pieces generalizing b with
  | nil =>
    have hcut : cut (b.waiting ++ stream []) = ([], b.waiting) := by
      rw [stream, List.flatMap_nil, List.append_nil, cut_of_not_mem hb]
    rw [hcut, ofList_waiting]
    rfl
  | cons p ps ih =>
    have hstream : b.waiting ++ stream (p :: ps) = (b.feed p).waiting ++ stream ps := by
      rw [waiting_feed, List.append_assoc]
      rfl
    rw [hstream] at hsized ⊢
    -- after a piece the buffer holds the beginning of a line, and the stream goes on from there
    have hfirst := takeAll_eq (b := b.feed p) hsized.waiting_le
    have hrest : (ofList (b.feed p).rest).waiting = (cut (b.feed p).waiting).2 := waiting_ofList _
    have hlater := ih (b := ofList (b.feed p).rest) (hrest ▸ (delimiter_not_mem_cut _).2)
      (hrest ▸ hsized.later)
    rw [takePieces, hfirst]
    dsimp only
    rw [hlater, hrest, cut_append (b.feed p).waiting, List.filterMap_append]
    rfl

theorem takePieces_joined {lines : List (List UInt8)} {rest : List UInt8} {pieces : List ByteArray}
    (hstream : stream pieces = joined lines rest)
    (hlines : ∀ l ∈ lines, delimiter ∉ l ∧ l.length ≤ maxFrameSize)
    (hrest : delimiter ∉ rest ∧ rest.length ≤ maxFrameSize) :
    empty.takePieces pieces = (lines.filterMap verdict?, ofList rest) := by
  have hempty : delimiter ∉ empty.waiting := List.not_mem_nil
  have hcut : cut (empty.waiting ++ stream pieces) = (lines, rest) := by
    rw [hstream]
    exact cut_joined_rest (fun l hl => (hlines l hl).1) hrest.1
  have hsized : Sized (empty.waiting ++ stream pieces) := by
    rw [Sized, hcut]
    exact ⟨fun l hl => (hlines l hl).2, hrest.2⟩
  rw [takePieces_eq hempty hsized, hcut]

end FrameBuffer

/-! ## Frames in a row -/

/-- No other character is encoded with the byte that ends a line. -/
theorem delimiter_not_mem_utf8EncodeChar {c : Char} (h : c ≠ '\n') :
    delimiter ∉ String.utf8EncodeChar c := by
  have hval : c.val.toNat ≠ 10 := fun heq => h (Char.ext (UInt32.toNat_inj.1 heq))
  have hbyte : ∀ v : Nat, v < 256 → v ≠ 10 → delimiter ≠ UInt8.ofNat v := by
    intro v hv hne heq
    have hnat := congrArg UInt8.toNat heq
    rw [UInt8.toNat_ofNat'] at hnat
    have hten : delimiter.toNat = 10 := rfl
    omega
  -- every byte of a longer encoding has its highest bit set
  unfold String.utf8EncodeChar
  dsimp only
  split
  · simp only [List.mem_singleton]
    exact hbyte _ (by omega) hval
  · split
    · simp only [List.mem_cons, List.not_mem_nil, or_false, not_or]
      exact ⟨hbyte _ (by omega) (by omega), hbyte _ (by omega) (by omega)⟩
    · split
      · simp only [List.mem_cons, List.not_mem_nil, or_false, not_or]
        exact ⟨hbyte _ (by omega) (by omega), hbyte _ (by omega) (by omega),
          hbyte _ (by omega) (by omega)⟩
      · simp only [List.mem_cons, List.not_mem_nil, or_false, not_or]
        exact ⟨hbyte _ (by omega) (by omega), hbyte _ (by omega) (by omega),
          hbyte _ (by omega) (by omega), hbyte _ (by omega) (by omega)⟩

theorem toList_toUTF8 (s : String) :
    s.toUTF8.data.toList = s.toList.flatMap String.utf8EncodeChar := by
  rw [String.toUTF8, ← String.utf8Encode_toList, List.utf8Encode, List.toList_data_toByteArray]

theorem delimiter_not_mem_utf8 {s : String} (h : '\n' ∉ s.toList) :
    delimiter ∉ s.toUTF8.data.toList := by
  rw [toList_toUTF8, List.mem_flatMap]
  rintro ⟨c, hc, hmem⟩
  exact delimiter_not_mem_utf8EncodeChar (fun heq => h (heq ▸ hc)) hmem

/-- The bytes of a frame without its line ending. -/
def lineBytes (m : Message) : List UInt8 := (frameLine m).toUTF8.data.toList

theorem bytes_encodeFrame (m : Message) :
    (encodeFrame m).toUTF8.data.toList = lineBytes m ++ [delimiter] := by
  have hnewline : "\n".toByteArray.data.toList = [delimiter] := by decide
  rw [encodeFrame_eq, String.toUTF8, String.toByteArray_append, ByteArray.toList_data_append,
    hnewline, lineBytes, String.toUTF8]

theorem verdict?_lineBytes {m : Message} (hfits : ∀ j ∈ m.args, j.Fits 125)
    (hreals : ∀ j ∈ m.args, ∀ n ∈ j.reals, n.ReadsBack) :
    verdict? (lineBytes m) = some (.ok m) := by
  have htext : lineText (lineBytes m) = frameLine m := by
    rw [lineText, lineBytes, FrameBuffer.toByteArray_toList, Utf8.text_toUTF8, trim_frameLine]
  have hne : frameLine m ≠ "" := by
    obtain ⟨inside, hinside⟩ := toList_frameLine m
    intro hempty
    rw [hempty] at hinside
    exact absurd hinside (List.cons_ne_nil _ _).symm
  rw [verdict?_of_text htext hne, decodeFrame_frameLine hfits hreals]

theorem utf8ByteSize_encodeFrame (m : Message) :
    (encodeFrame m).utf8ByteSize = (lineBytes m).length + 1 := by
  have hlength := congrArg List.length (bytes_encodeFrame m)
  rw [List.length_append] at hlength
  exact hlength

theorem flatMap_encodeFrame (ms : List Message) :
    (ms.flatMap fun m => (encodeFrame m).toUTF8.data.toList) = joined (ms.map lineBytes) [] := by
  simp only [joined, List.append_nil, List.flatMap_map, bytes_encodeFrame]

theorem sized_lineBytes {ms : List Message}
    (hsize : ∀ m ∈ ms, (encodeFrame m).utf8ByteSize ≤ maxFrameSize + 1) :
    ∀ l ∈ ms.map lineBytes, delimiter ∉ l ∧ l.length ≤ maxFrameSize := by
  rw [List.forall_mem_map]
  intro m hm
  have hle := hsize m hm
  rw [utf8ByteSize_encodeFrame] at hle
  exact ⟨delimiter_not_mem_utf8 (newline_not_mem_frameLine m), Nat.le_of_succ_le_succ hle⟩

theorem takePieces_frames {ms : List Message} {pieces : List ByteArray}
    (hstream : FrameBuffer.stream pieces
      = ms.flatMap fun m => (encodeFrame m).toUTF8.data.toList)
    (hsize : ∀ m ∈ ms, (encodeFrame m).utf8ByteSize ≤ maxFrameSize + 1) :
    FrameBuffer.empty.takePieces pieces
      = ((ms.map lineBytes).filterMap verdict?, FrameBuffer.empty) := by
  rw [flatMap_encodeFrame] at hstream
  exact FrameBuffer.takePieces_joined hstream (sized_lineBytes hsize)
    ⟨List.not_mem_nil, Nat.zero_le _⟩

theorem verdicts_lineBytes {ms : List Message} (hfits : ∀ m ∈ ms, ∀ j ∈ m.args, j.Fits 125)
    (hreals : ∀ m ∈ ms, ∀ j ∈ m.args, ∀ n ∈ j.reals, n.ReadsBack) :
    (ms.map lineBytes).filterMap verdict? = ms.map .ok := by
  induction ms with
  | nil => rfl
  | cons m ms ih =>
    obtain ⟨hfits, hfits'⟩ := List.forall_mem_cons.1 hfits
    obtain ⟨hreals, hreals'⟩ := List.forall_mem_cons.1 hreals
    rw [List.map_cons, List.filterMap_cons_some (verdict?_lineBytes hfits hreals),
      ih hfits' hreals', List.map_cons]

/-- **How a stream is cut does not matter.** Every stream is some lines and a rest. When none of
them is longer than a frame may be, a buffer that is fed the stream in any pieces, and asked for
messages after each until it has none, gives one result for each line that is not blank, in order,
and keeps the rest. Frames in a row come back as their messages, if each of these comes back from
its own frame. -/
theorem stream_cut_anyhow :
    (∀ bytes : List UInt8, ∃ lines rest, bytes = joined lines rest ∧
      (∀ l ∈ lines, delimiter ∉ l) ∧ delimiter ∉ rest) ∧
    (∀ lines rest pieces, FrameBuffer.stream pieces = joined lines rest →
      (∀ l ∈ lines, delimiter ∉ l ∧ l.length ≤ maxFrameSize) →
      (delimiter ∉ rest ∧ rest.length ≤ maxFrameSize) →
      FrameBuffer.empty.takePieces pieces
        = (lines.filterMap verdict?, FrameBuffer.ofList rest)) ∧
    ∀ (ms : List Message) pieces,
      FrameBuffer.stream pieces = (ms.flatMap fun m => (encodeFrame m).toUTF8.data.toList) →
      (∀ m ∈ ms, (encodeFrame m).utf8ByteSize ≤ maxFrameSize + 1) →
      (∀ m ∈ ms, ∀ j ∈ m.args, j.depth ≤ 125 ∧ j.Canonical) →
      (∀ m ∈ ms, ∀ j ∈ m.args, ∀ n ∈ j.reals, n.ReadsBack) →
      FrameBuffer.empty.takePieces pieces = (ms.map .ok, FrameBuffer.empty) := by
  refine ⟨fun bytes => ?_, fun lines rest pieces hstream hlines hrest => ?_,
    fun ms pieces hstream hsize hfits hreals => ?_⟩
  · exact ⟨(cut bytes).1, (cut bytes).2, (joined_cut bytes).symm, delimiter_not_mem_cut bytes⟩
  · exact FrameBuffer.takePieces_joined hstream hlines hrest
  · rw [takePieces_frames hstream hsize, verdicts_lineBytes hfits hreals]

/-- A stream cut inside a character, with a blank line and one that is no message, and an unfinished
line behind them; and two frames cut in the middle of the first. -/
theorem stream_cut_anyhow_inside :
    FrameBuffer.empty.takePieces
        [[123, 34, 110, 97, 109, 101, 34, 58, 34, 195].toByteArray,
          [169, 34, 125, 13, 10, 32, 10, 125, 10, 91].toByteArray]
      = ([.ok ⟨none, .call, .plain, "é", []⟩, .error (.json .mismatch)],
          FrameBuffer.ofList [91]) ∧
    FrameBuffer.empty.takePieces
        [((lineBytes .ok ++ delimiter :: lineBytes .killSignal ++ [delimiter]).take 3).toByteArray,
          ((lineBytes .ok ++ delimiter :: lineBytes .killSignal ++ [delimiter]).drop 3).toByteArray]
      = ([.ok .ok, .ok .killSignal], FrameBuffer.empty) := by
  constructor
  · have htext : lineText [123, 34, 110, 97, 109, 101, 34, 58, 34, 195, 169, 34, 125, 13]
        = "\x7b\"name\":\"é\"\x7d" := by cbv
    have hblanks : lineText [32] = "" := by cbv
    have hbrace : lineText [125] = "\x7d" := by cbv
    have hmessage : decodeFrame "\x7b\"name\":\"é\"\x7d"
        = .ok ⟨none, .call, .plain, "é", []⟩ := by cbv
    have hfault : decodeFrame "\x7d" = .error (.json .mismatch) := by cbv
    have hfirst := verdict?_of_text htext (by decide)
    have hblank : verdict? [32] = none := if_pos hblanks
    have hlast := verdict?_of_text hbrace (by decide)
    rw [hmessage] at hfirst
    rw [hfault] at hlast
    have hverdicts : [[123, 34, 110, 97, 109, 101, 34, 58, 34, 195, 169, 34, 125, 13], [32],
        [125]].filterMap verdict?
          = [.ok ⟨none, .call, .plain, "é", []⟩, .error (.json .mismatch)] := by
      rw [List.filterMap_cons_some hfirst, List.filterMap_cons_none hblank,
        List.filterMap_cons_some hlast, List.filterMap_nil]
    rw [← hverdicts]
    exact stream_cut_anyhow.2.1 _ _ _ (by decide) (by decide) (by decide)
  · have hfits : ∀ m ∈ [Message.ok, Message.killSignal],
        ∀ j ∈ m.args, j.depth ≤ 125 ∧ j.Canonical := by
      simp [Message.ok, Message.result, Message.killSignal, Json.depth, Json.Canonical]
    have hreals : ∀ m ∈ [Message.ok, Message.killSignal],
        ∀ j ∈ m.args, ∀ n ∈ j.reals, n.ReadsBack := by
      simp [Message.ok, Message.result, Message.killSignal, Json.reals]
    refine stream_cut_anyhow.2.2 [.ok, .killSignal] _ ?_ (by decide +kernel) hfits hreals
    rw [flatMap_encodeFrame, List.map_cons, List.map_cons, List.map_nil, joined_cons, joined_cons,
      joined_nil, FrameBuffer.stream, List.flatMap_cons, List.flatMap_singleton,
      List.toList_data_toByteArray, List.toList_data_toByteArray, List.take_append_drop,
      List.append_assoc, List.cons_append]

/-! ## Frames that no reader admits -/

/-- A message with an argument nested deeper than a reader admits does not come back from its
frame, short as that may be. -/
theorem deep_frame_refused {m : Message} {j : Json} (hj : j ∈ m.args) (hdeep : 125 < j.depth)
    (hsize : (encodeFrame m).utf8ByteSize ≤ maxFrameSize + 1) :
    FrameBuffer.empty.takePieces [(encodeFrame m).toUTF8] ≠ ([.ok m], FrameBuffer.empty) := by
  intro h
  have hstream : FrameBuffer.stream [(encodeFrame m).toUTF8]
      = [m].flatMap fun m => (encodeFrame m).toUTF8.data.toList := by
    rw [FrameBuffer.stream, List.flatMap_singleton, List.flatMap_singleton]
  rw [takePieces_frames hstream fun m' hm => List.mem_singleton.1 hm ▸ hsize] at h
  have hmem : .ok m ∈ ([m].map lineBytes).filterMap verdict? := by
    rw [(Prod.mk.inj h).1]
    exact List.mem_cons_self
  obtain ⟨l, _, hverdict⟩ := List.mem_filterMap.1 hmem
  exact absurd (args_fit_of_verdict? hverdict j hj).1 (Nat.not_le.2 hdeep)

theorem utf8ByteSize_le (s : String) : s.utf8ByteSize ≤ 4 * s.toList.length := by
  have hchars : ∀ cs : List Char, (cs.flatMap String.utf8EncodeChar).length ≤ 4 * cs.length := by
    intro cs
    induction cs with
    | nil => exact Nat.le_refl 0
    | cons c cs ih =>
      have hc : (String.utf8EncodeChar c).length ≤ 4 := by
        rw [String.length_utf8EncodeChar]
        exact c.utf8Size_le_four
      rw [List.flatMap_cons, List.length_append, List.length_cons]
      omega
  have hlength : s.utf8ByteSize = s.toUTF8.data.toList.length := rfl
  rw [hlength, toList_toUTF8]
  exact hchars s.toList

theorem utf8ByteSize_encodeFrame_le (m : Message) :
    (encodeFrame m).utf8ByteSize ≤ 4 * ((escapeChars (Json.write m.toJson)).length + 1) := by
  refine Nat.le_trans (utf8ByteSize_le _) (Nat.mul_le_mul_left 4 (Nat.le_of_eq ?_))
  rw [encodeFrame_eq, String.toList_append, List.length_append, frameLine, escape, Json.compact,
    String.toList_ofList, String.toList_ofList]
  rfl

/-- An array in an array, and so on. -/
def nested : Nat → Json
  | 0 => .null
  | n + 1 => .arr [nested n]

theorem depth_nested (n : Nat) : (nested n).depth = n := by
  induction n with
  | zero => rfl
  | succ n ih => simp only [nested, Json.depth, Json.depthItems, ih, Nat.max_zero]

/-- One level too many. -/
theorem nested_frame_refused :
    (encodeFrame (.result "x" [nested 126])).utf8ByteSize ≤ maxFrameSize + 1 ∧
      FrameBuffer.empty.takePieces [(encodeFrame (.result "x" [nested 126])).toUTF8]
        ≠ ([.ok (.result "x" [nested 126])], FrameBuffer.empty) := by
  have hline :
      (escapeChars (Json.write (Message.result "x" [nested 126]).toJson)).length ≤ 400 := by
    decide +kernel
  have hsize : (encodeFrame (.result "x" [nested 126])).utf8ByteSize ≤ maxFrameSize + 1 := by
    refine Nat.le_trans (utf8ByteSize_encodeFrame_le _) ?_
    have hmax : 4 * (400 + 1) ≤ maxFrameSize + 1 := by decide
    omega
  have hdeep : 125 < (nested 126).depth := by
    rw [depth_nested]
    decide
  exact ⟨hsize, deep_frame_refused List.mem_cons_self hdeep hsize⟩

end KeywordRunner.Wire
