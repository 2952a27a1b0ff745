import KeywordRunner.Proofs.Wire.Stream

/-!
# Proofs.Wire.Remnants — what becomes of a line that grows too long

A buffer that gives up the bytes of an unfinished line forgets that it was in the middle of one:
what comes of that line later is taken for a line of its own. `Passage` is a line of the stream as
it went through a buffer, with the stretches that were given up and what was kept of it, and
`Account` says of a whole stream what was told and where each of its bytes went. One piece leads
from an account to the next (`Account.feed`), and the run follows by induction over the pieces.

* **`lines_lose_long_stretches`** — each text is that of a line whose beginning was given up in
  stretches longer than a frame may be, each of them reported; of a line that is no longer than a
  frame may be, nothing is given up.
* **`tail_told_as_line`** — so the end of a line that was reported as too long is told as a line.
-/

namespace KeywordRunner.Wire

namespace FrameBuffer

/-! ## All lines that a buffer has -/

/-- Takes one line after the other until there is none; a fault is passed over. -/
def takeLines (b : FrameBuffer) : List (Except FrameFault String) × FrameBuffer :=
  match h : b.nextLine with
  | (.ok none, rest) => ([], rest)
  | (.ok (some t), rest) =>
    have : rest.size < b.size := by
      have := size_nextLine_lt (b := b) (by simp [h])
      simpa [h] using this
    let (told, last) := rest.takeLines
    (.ok t :: told, last)
  | (.error e, rest) =>
    have : rest.size < b.size := by
      have := size_nextLine_lt (b := b) (by simp [h])
      simpa [h] using this
    let (told, last) := rest.takeLines
    (.error e :: told, last)
termination_by b.size

theorem takeLines_of_none {b rest : FrameBuffer} (h : b.nextLine = (.ok none, rest)) :
    b.takeLines = ([], rest) := by
  rw [takeLines]
  split <;> simp_all

theorem takeLines_of_some {b rest : FrameBuffer} {v : Except FrameFault String}
    (h : b.nextLine = (v.map some, rest)) :
    b.takeLines = (v :: rest.takeLines.1, rest.takeLines.2) := by
  rw [takeLines]
  cases v <;> split <;> simp_all [Except.map]

theorem takeLines_empty : empty.takeLines = ([], empty) := by
  apply takeLines_of_none
  rw [nextLine_of_none rfl]
  exact if_neg (by decide)

/-- A fault of an unfinished line that has become too long. -/
def faults (waiting : List UInt8) : List (Except FrameFault String) :=
  if maxFrameSize < waiting.length then [.error (.tooLarge waiting.length)] else []

/-- What is left of an unfinished line: all of it, or nothing when it has become too long. -/
def remnant (waiting : List UInt8) : List UInt8 :=
  if maxFrameSize < waiting.length then [] else waiting

/-- The lines come first. What waits behind them is left, or given up with a fault. -/
theorem takeLines_eq (b : FrameBuffer) :
    b.takeLines = (b.texts.map .ok ++ faults b.rest, ofList (remnant b.rest)) := by
  -- by the texts that are still to come; what waits behind them stays the same all along
  generalize htexts : b.texts = ts
  induction ts generalizing b with
  | nil =>
    have hnext := nextLine_of_none htexts
    unfold faults remnant
    split at hnext
    · next hlong =>
      rw [takeLines_of_some (v := .error (.tooLarge b.rest.length)) hnext, takeLines_empty,
        if_pos hlong, if_pos hlong]
      rfl
    · next hshort =>
      rw [takeLines_of_none hnext, if_neg hshort, if_neg hshort]
      rfl
  | cons t ts ih =>
    obtain ⟨b', hnext, hlater, hrest⟩ := nextLine_of_texts htexts
    rw [takeLines_of_some (v := .ok t) hnext, ih b' hlater, hrest]
    rfl

/-- Messages are what the lines are decoded to, whatever was given up before. -/
theorem takeAll_eq_takeLines (b : FrameBuffer) :
    b.takeAll = (b.takeLines.1.map (· >>= decodeFrame), b.takeLines.2) := by
  -- each line that is taken leaves fewer bytes
  induction hsize : b.size using Nat.strongRecOn generalizing b with
  | ind n ih =>
    rcases nextLine_cases b with ⟨rest, hnext⟩ | ⟨v, rest, hnext, hlt⟩
    · have hmessage : b.nextMessage = (.ok none, rest) := by
        unfold nextMessage
        rw [hnext]
      rw [takeAll_of_none hmessage, takeLines_of_none hnext, List.map_nil]
    · rw [takeAll_of_some (nextMessage_of_line hnext), takeLines_of_some hnext,
        ih rest.size (hsize ▸ hlt) rest rfl, List.map_cons]

/-- Feeds a buffer the pieces of a stream, and takes the lines that it has after each of them. -/
def tellPieces (b : FrameBuffer) : List ByteArray → List (Except FrameFault String) × FrameBuffer
  | [] => ([], b)
  | p :: ps =>
    let (told, b) := (b.feed p).takeLines
    let (later, b) := b.tellPieces ps
    (told ++ later, b)

theorem tellPieces_cons (b : FrameBuffer) (p : ByteArray) (ps : List ByteArray) :
    b.tellPieces (p :: ps)
      = ((b.feed p).takeLines.1 ++ ((b.feed p).takeLines.2.tellPieces ps).1,
          ((b.feed p).takeLines.2.tellPieces ps).2) := rfl

theorem takePieces_eq_tellPieces (pieces : List ByteArray) (b : FrameBuffer) :
    b.takePieces pieces
      = ((b.tellPieces pieces).1.map (· >>= decodeFrame), (b.tellPieces pieces).2) := by
  induction pieces generalizing b with
  | nil => rfl
  | cons p ps ih =>
    rw [takePieces, takeAll_eq_takeLines]
    dsimp only
    rw [ih, tellPieces_cons, List.map_append]

end FrameBuffer

open FrameBuffer (faults remnant)

/-! ## A line on its way through a buffer -/

/-- A line of a stream as it went through a buffer: the stretches that were given up before it
ended, and what was kept. -/
structure Passage where
  lost : List (List UInt8)
  kept : List UInt8

namespace Passage

def line (p : Passage) : List UInt8 := p.lost.flatten ++ p.kept

/-- The faults that a line has caused. -/
def complaints (p : Passage) : List (Except FrameFault String) := p.lost.flatMap faults

/-- What a line has caused when it has ended. -/
def reports (p : Passage) : List (Except FrameFault String) :=
  p.complaints ++ (lineText? p.kept).toList.map .ok

def extend (p : Passage) (more : List UInt8) : Passage := ⟨p.lost, p.kept ++ more⟩

/-- Gives up what is kept of an unfinished line when that has become too long. -/
def settle (p : Passage) : Passage :=
  if maxFrameSize < p.kept.length then ⟨p.lost ++ [p.kept], []⟩ else p

/-- A line of which nothing is given up. -/
def whole (l : List UInt8) : Passage := ⟨[], l⟩

/-- Only stretches longer than a frame may be are given up. -/
def LosesLong (p : Passage) : Prop := ∀ s ∈ p.lost, maxFrameSize < s.length

theorem line_extend (p : Passage) (more : List UInt8) :
    (p.extend more).line = p.line ++ more := (List.append_assoc _ _ _).symm

theorem line_settle (p : Passage) : p.settle.line = p.line := by
  unfold settle
  split
  · simp only [line, List.flatten_append, List.flatten_cons, List.flatten_nil, List.append_nil]
  · rfl

theorem kept_settle (p : Passage) : p.settle.kept = remnant p.kept := by
  unfold settle remnant
  split <;> rfl

theorem complaints_settle (p : Passage) :
    p.settle.complaints = p.complaints ++ faults p.kept := by
  unfold settle
  split
  · simp only [complaints, List.flatMap_append, List.flatMap_singleton]
  · next hshort =>
    rw [faults, if_neg hshort, List.append_nil]

theorem LosesLong.settle {p : Passage} (h : p.LosesLong) : p.settle.LosesLong := by
  unfold Passage.settle
  split
  · next hlong =>
    intro s hs
    rcases List.mem_append.1 hs with hs | hs
    · exact h s hs
    · rw [List.mem_singleton.1 hs]
      exact hlong
  · exact h

theorem length_kept_settle (p : Passage) : p.settle.kept.length ≤ maxFrameSize := by
  rw [kept_settle, remnant]
  split
  · exact Nat.zero_le _
  · next hshort => exact Nat.le_of_not_lt hshort

theorem texts_cons (l : List UInt8) (ls : List (List UInt8)) :
    (l :: ls).filterMap lineText? = (lineText? l).toList ++ ls.filterMap lineText? := by
  rw [List.filterMap_cons]
  cases lineText? l <;> rfl

theorem kept_whole (l : List UInt8) : (whole l).kept = l := rfl

theorem complaints_whole (l : List UInt8) : (whole l).complaints = [] := rfl

/-- Whole lines cause their texts. -/
theorem reports_whole (ls : List (List UInt8)) :
    (ls.map whole).flatMap reports = (ls.filterMap lineText?).map .ok := by
  induction ls with
  | nil => rfl
  | cons l ls ih =>
    rw [List.map_cons, List.flatMap_cons, ih, reports, complaints_whole, kept_whole,
      List.nil_append, texts_cons, List.map_append]

theorem line_whole (ls : List (List UInt8)) : (ls.map whole).map line = ls := by
  rw [List.map_map]
  exact List.map_id ls

theorem losesLong_whole (l : List UInt8) : (whole l).LosesLong := fun _ hs =>
  absurd hs List.not_mem_nil

/-- A line that is short enough is kept as a whole. -/
theorem LosesLong.lost_eq_nil {p : Passage} (h : p.LosesLong)
    (hline : p.line.length ≤ maxFrameSize) : p.lost = [] := by
  cases hlost : p.lost with
  | nil => rfl
  | cons s ss =>
    have hs : maxFrameSize < s.length := h s (hlost ▸ List.mem_cons_self)
    rw [line, hlost, List.flatten_cons, List.append_assoc, List.length_append] at hline
    omega

/-- A stretch that was given up has been reported. -/
theorem LosesLong.mem_reports {p : Passage} (h : p.LosesLong) {s : List UInt8} (hs : s ∈ p.lost) :
    .error (.tooLarge s.length) ∈ p.reports := by
  apply List.mem_append_left
  apply List.mem_flatMap.2
  refine ⟨s, hs, ?_⟩
  rw [faults, if_pos (h s hs)]
  exact List.mem_cons_self

end Passage

/-! ## The account of a stream -/

open Passage in
/-- Where the bytes of a stream went, and what was told of them: `passages` are its complete lines,
and `last` is the one that has not ended. -/
structure Account (bytes : List UInt8) (told : List (Except FrameFault String))
    (passages : List Passage) (last : Passage) : Prop where
  stream : bytes = joined (passages.map line) last.line
  reported : told = passages.flatMap reports ++ last.complaints
  endings : ∀ p ∈ last :: passages, delimiter ∉ p.line
  losses : ∀ p ∈ last :: passages, p.LosesLong

namespace Account

variable {bytes : List UInt8} {told : List (Except FrameFault String)} {passages : List Passage}
  {last : Passage}

/-- Before anything has come. -/
theorem start : Account [] [] [] (.whole []) where
  stream := rfl
  reported := rfl
  endings := by
    intro p hp
    rw [List.mem_singleton.1 hp]
    exact List.not_mem_nil
  losses := by
    intro p hp s hs
    rw [List.mem_singleton.1 hp] at hs
    exact absurd hs List.not_mem_nil

/-- More bytes without a line ending go to the line that has not ended. -/
theorem continue_line (h : Account bytes told passages last) {more : List UInt8}
    (hmore : delimiter ∉ more) : Account (bytes ++ more) told passages (last.extend more) where
  stream := by rw [h.stream, joined_append, Passage.line_extend]
  reported := h.reported
  endings := by
    obtain ⟨hlast, hpassages⟩ := List.forall_mem_cons.1 h.endings
    apply List.forall_mem_cons.2 ⟨?_, hpassages⟩
    rw [Passage.line_extend, List.mem_append]
    exact fun hmem => hmem.elim hlast hmore
  losses := by
    obtain ⟨hlast, hpassages⟩ := List.forall_mem_cons.1 h.losses
    exact List.forall_mem_cons.2 ⟨hlast, hpassages⟩

/-- A line ending: what was kept of the line is told, and lines behind it are whole. -/
theorem end_line (h : Account bytes told passages last) {l rest : List UInt8}
    {ls : List (List UInt8)} {more : List UInt8} (hl : delimiter ∉ l)
    (hmore : last.kept ++ more = joined (l :: ls) rest) (hls : ∀ l ∈ ls, delimiter ∉ l)
    (hrest : delimiter ∉ rest) :
    Account (bytes ++ more) (told ++ ((l :: ls).filterMap lineText?).map .ok)
      (passages ++ ⟨last.lost, l⟩ :: ls.map .whole) (.whole rest) where
  stream := by
    have hlines : (passages ++ ⟨last.lost, l⟩ :: ls.map Passage.whole).map Passage.line
        = passages.map Passage.line ++ (last.lost.flatten ++ l) :: ls := by
      rw [List.map_append, List.map_cons, Passage.line_whole]
      rfl
    rw [hlines, h.stream, joined_append, joined_lines_append, joined_cons, Passage.line,
      List.append_assoc, hmore, joined_cons, ← List.append_assoc]
    rfl
  reported := by
    have hended : (⟨last.lost, l⟩ : Passage).reports
        = last.complaints ++ (lineText? l).toList.map .ok := rfl
    rw [h.reported, List.flatMap_append, List.flatMap_cons, hended, Passage.reports_whole,
      Passage.complaints_whole, Passage.texts_cons, List.map_append, List.append_nil]
    simp only [List.append_assoc]
  endings := by
    obtain ⟨hlast, hpassages⟩ := List.forall_mem_cons.1 h.endings
    have hended : delimiter ∉ (⟨last.lost, l⟩ : Passage).line := by
      intro hmem
      rcases List.mem_append.1 hmem with hlost | hmem
      · exact hlast (List.mem_append_left _ hlost)
      · exact hl hmem
    intro p hp
    rcases List.mem_cons.1 hp with rfl | hp
    · exact hrest
    rcases List.mem_append.1 hp with hp | hp
    · exact hpassages p hp
    rcases List.mem_cons.1 hp with rfl | hp
    · exact hended
    · obtain ⟨l', hl', rfl⟩ := List.mem_map.1 hp
      exact hls l' hl'
  losses := by
    obtain ⟨hlast, hpassages⟩ := List.forall_mem_cons.1 h.losses
    intro p hp
    rcases List.mem_cons.1 hp with rfl | hp
    · exact Passage.losesLong_whole rest
    rcases List.mem_append.1 hp with hp | hp
    · exact hpassages p hp
    rcases List.mem_cons.1 hp with rfl | hp
    · exact hlast
    · obtain ⟨l', hl', rfl⟩ := List.mem_map.1 hp
      exact Passage.losesLong_whole l'

/-- The line that has not ended is given up when it has become too long. -/
theorem settle (h : Account bytes told passages last) :
    Account bytes (told ++ faults last.kept) passages last.settle where
  stream := by rw [Passage.line_settle, h.stream]
  reported := by rw [Passage.complaints_settle, h.reported, List.append_assoc]
  endings := by
    obtain ⟨hlast, hpassages⟩ := List.forall_mem_cons.1 h.endings
    exact List.forall_mem_cons.2 ⟨last.line_settle ▸ hlast, hpassages⟩
  losses := by
    obtain ⟨hlast, hpassages⟩ := List.forall_mem_cons.1 h.losses
    exact List.forall_mem_cons.2 ⟨hlast.settle, hpassages⟩

/-- **One piece leads from an account to the next**, and what is kept of the last line is short. -/
theorem feed (h : Account bytes told passages last) (piece : ByteArray) :
    ∃ passages' last',
      Account (bytes ++ piece.data.toList)
        (told ++ ((FrameBuffer.ofList last.kept).feed piece).takeLines.1) passages' last' ∧
      ((FrameBuffer.ofList last.kept).feed piece).takeLines.2 = FrameBuffer.ofList last'.kept ∧
      last'.kept.length ≤ maxFrameSize := by
  generalize hb : (FrameBuffer.ofList last.kept).feed piece = b
  have hwaiting : b.waiting = last.kept ++ piece.data.toList := by
    rw [← hb, FrameBuffer.waiting_feed, FrameBuffer.waiting_ofList]
  have hjoined : last.kept ++ piece.data.toList = joined (cut b.waiting).1 b.rest := by
    rw [← hwaiting]
    exact (joined_cut b.waiting).symm
  obtain ⟨hlines, hrest⟩ := delimiter_not_mem_cut b.waiting
  -- first all the lines, then what waits behind them
  have hgrown : ∃ passages' last', Account (bytes ++ piece.data.toList)
      (told ++ b.texts.map .ok) passages' last' ∧ last'.kept = b.rest := by
    unfold FrameBuffer.texts
    cases hcut : (cut b.waiting).1 with
    | nil =>
      rw [hcut, joined_nil] at hjoined
      have hpiece : delimiter ∉ piece.data.toList := by
        intro hmem
        apply hrest
        show delimiter ∈ b.rest
        rw [← hjoined]
        exact List.mem_append_right last.kept hmem
      refine ⟨passages, last.extend piece.data.toList, ?_, hjoined⟩
      rw [List.filterMap_nil, List.map_nil, List.append_nil]
      exact h.continue_line hpiece
    | cons l ls =>
      rw [hcut] at hjoined hlines
      obtain ⟨hl, hls⟩ := List.forall_mem_cons.1 hlines
      exact ⟨_, .whole b.rest, h.end_line hl hjoined hls hrest, rfl⟩
  obtain ⟨passages', last', haccount, hkept⟩ := hgrown
  refine ⟨passages', last'.settle, ?_, ?_, last'.length_kept_settle⟩
  · rw [FrameBuffer.takeLines_eq, ← hkept, ← List.append_assoc]
    exact haccount.settle
  · rw [FrameBuffer.takeLines_eq, Passage.kept_settle, hkept]

/-- All pieces of a stream, by induction over them. -/
theorem tellPieces (h : Account bytes told passages last) (hshort : last.kept.length ≤ maxFrameSize)
    (pieces : List ByteArray) :
    ∃ passages' last',
      Account (bytes ++ FrameBuffer.stream pieces)
        (told ++ ((FrameBuffer.ofList last.kept).tellPieces pieces).1) passages' last' ∧
      ((FrameBuffer.ofList last.kept).tellPieces pieces).2 = FrameBuffer.ofList last'.kept ∧
      last'.kept.length ≤ maxFrameSize := by
  induction pieces generalizing bytes told passages last with
  | nil =>
    refine ⟨passages, last, ?_, rfl, hshort⟩
    show Account (bytes ++ []) (told ++ []) passages last
    rw [List.append_nil, List.append_nil]
    exact h
  | cons piece pieces ih =>
    obtain ⟨passages', last', hnext, hheld, hshort'⟩ := h.feed piece
    obtain ⟨passages'', last'', hlater, hheld', hshort''⟩ := ih hnext hshort'
    have hstream : FrameBuffer.stream (piece :: pieces)
        = piece.data.toList ++ FrameBuffer.stream pieces := List.flatMap_cons
    refine ⟨passages'', last'', ?_, ?_, hshort''⟩
    · rw [hstream, FrameBuffer.tellPieces_cons, hheld, ← List.append_assoc, ← List.append_assoc]
      exact hlater
    · rw [FrameBuffer.tellPieces_cons, hheld]
      exact hheld'

/-- A text that was told is what was kept of a line, and all that this line lost was reported. -/
theorem line_of_text (h : Account bytes told passages last) {t : String} (ht : .ok t ∈ told) :
    ∃ p ∈ passages, lineText p.kept = t ∧ ∀ s ∈ p.lost, .error (.tooLarge s.length) ∈ told := by
  rw [h.reported] at ht ⊢
  have hfault : ∀ p : Passage, .ok t ∉ p.complaints := by
    intro p hmem
    obtain ⟨s, _, hs⟩ := List.mem_flatMap.1 hmem
    rw [faults] at hs
    split at hs
    · exact absurd (List.mem_singleton.1 hs) (by simp)
    · exact absurd hs List.not_mem_nil
  rcases List.mem_append.1 ht with ht | ht
  · obtain ⟨p, hp, ht⟩ := List.mem_flatMap.1 ht
    rcases List.mem_append.1 ht with ht | ht
    · exact absurd ht (hfault p)
    · obtain ⟨t', ht', heq⟩ := List.mem_map.1 ht
      have htext : lineText? p.kept = some t := by
        rw [← Except.ok.inj heq]
        exact Option.mem_toList.1 ht'
      have hlong := (List.forall_mem_cons.1 h.losses).2 p hp
      refine ⟨p, hp, ?_, fun s hs => ?_⟩
      · exact text_of_lineText? htext
      · exact List.mem_append_left _ (List.mem_flatMap.2 ⟨p, hp, hlong.mem_reports hs⟩)
  · exact absurd ht (hfault last)

end Account

/-- **What a line loses is long, and is reported.** Of every stream, in any pieces, each text is
that of a line, or of its end: stretches longer than a frame may be can be missing before it, and
each of them has been told as a fault. A line that is no longer than a frame may be is told as a
whole, and every line that is not blank behind its losses is told. Messages are what the texts are
decoded to. -/
theorem lines_lose_long_stretches (pieces : List ByteArray) :
    ∃ passages last,
      Account (FrameBuffer.stream pieces) (FrameBuffer.empty.tellPieces pieces).1 passages last ∧
      (FrameBuffer.empty.tellPieces pieces).2 = FrameBuffer.ofList last.kept ∧
      last.kept.length ≤ maxFrameSize ∧
      (∀ t, .ok t ∈ (FrameBuffer.empty.tellPieces pieces).1 →
        ∃ p ∈ passages, lineText p.kept = t ∧
          (p.line.length ≤ maxFrameSize → p.kept = p.line) ∧
          ∀ s ∈ p.lost, maxFrameSize < s.length ∧
            .error (.tooLarge s.length) ∈ (FrameBuffer.empty.tellPieces pieces).1) ∧
      FrameBuffer.empty.takePieces pieces
        = ((FrameBuffer.empty.tellPieces pieces).1.map (· >>= decodeFrame),
            FrameBuffer.ofList last.kept) := by
  obtain ⟨passages, last, haccount, hheld, hshort⟩ :=
    Account.start.tellPieces (Nat.zero_le _) pieces
  rw [List.nil_append, List.nil_append] at haccount
  have hempty : FrameBuffer.ofList (Passage.whole []).kept = FrameBuffer.empty := rfl
  rw [hempty] at haccount hheld
  refine ⟨passages, last, haccount, hheld, hshort, fun t ht => ?_, ?_⟩
  · obtain ⟨p, hp, htext, hreported⟩ := haccount.line_of_text ht
    have hlong := (List.forall_mem_cons.1 haccount.losses).2 p hp
    refine ⟨p, hp, htext, fun hline => ?_, fun s hs => ⟨hlong s hs, hreported s hs⟩⟩
    rw [Passage.line, hlong.lost_eq_nil hline]
    rfl
  · rw [FrameBuffer.takePieces_eq_tellPieces, hheld]

/-! ## The end of a line that was given up -/

variable {flood tail : List UInt8}

/-- What comes of a line after it was given up is told as a line of its own. -/
theorem tellPieces_flood (hflood : delimiter ∉ flood) (hlong : maxFrameSize < flood.length)
    (htail : delimiter ∉ tail) :
    FrameBuffer.empty.tellPieces [flood.toByteArray, (tail ++ [delimiter]).toByteArray]
      = (.error (.tooLarge flood.length) :: (lineText? tail).toList.map .ok,
          FrameBuffer.empty) := by
  have hfirst : (FrameBuffer.empty.feed flood.toByteArray).takeLines
      = ([.error (.tooLarge flood.length)], FrameBuffer.empty) := by
    have hcut : cut (FrameBuffer.empty.feed flood.toByteArray).waiting = ([], flood) := by
      rw [FrameBuffer.waiting_feed, List.toList_data_toByteArray]
      exact cut_of_not_mem hflood
    rw [FrameBuffer.takeLines_eq, FrameBuffer.texts, FrameBuffer.rest, hcut, faults, remnant,
      if_pos hlong, if_pos hlong]
    rfl
  have hsecond : (FrameBuffer.empty.feed (tail ++ [delimiter]).toByteArray).takeLines
      = ((lineText? tail).toList.map .ok, FrameBuffer.empty) := by
    have hcut : cut (FrameBuffer.empty.feed (tail ++ [delimiter]).toByteArray).waiting
        = ([tail], []) := by
      rw [FrameBuffer.waiting_feed, List.toList_data_toByteArray]
      exact cut_line htail []
    have hempty : ¬ maxFrameSize < ([] : List UInt8).length := Nat.not_lt_zero _
    rw [FrameBuffer.takeLines_eq, FrameBuffer.texts, FrameBuffer.rest, hcut, faults, remnant,
      if_neg hempty, if_neg hempty, List.append_nil, List.filterMap_cons]
    cases lineText? tail <;> rfl
  rw [FrameBuffer.tellPieces_cons, hfirst, FrameBuffer.tellPieces_cons, hsecond,
    FrameBuffer.tellPieces, List.append_nil, List.singleton_append]

/-- A text that begins and ends in characters that are no blanks comes back from its bytes. -/
theorem lineText_toUTF8 {s : String} {c d : Char} {cs : List Char}
    (hs : s.toList = c :: (cs ++ [d])) (hc : Text.isBlank c = false)
    (hd : Text.isBlank d = false) : lineText s.toUTF8.data.toList = s := by
  rw [lineText, FrameBuffer.toByteArray_toList, Utf8.text_toUTF8, Text.trim, hs,
    Text.trimChars_of_ends cs hc hd, ← hs, String.ofList_toList]

/-- Behind other characters that are no blanks, a word is not the text of the line. -/
theorem lineText_flood_ne (n : Nat) :
    lineText (List.replicate (n + 1) 120 ++ [116, 97, 105, 108]) ≠ "tail" := by
  have hchars : (String.ofList ('x' :: (List.replicate n 'x' ++ ['t', 'a', 'i'] ++ ['l']))).toList
      = 'x' :: (List.replicate n 'x' ++ ['t', 'a', 'i'] ++ ['l']) := String.toList_ofList
  have hflood : (List.replicate n 'x').flatMap String.utf8EncodeChar = List.replicate n 120 := by
    have hx : String.utf8EncodeChar 'x' = [120] := by decide
    rw [List.flatMap_replicate, hx, List.flatten_replicate_singleton]
  have hbytes : List.replicate (n + 1) 120 ++ [116, 97, 105, 108]
      = (String.ofList ('x' ::
          (List.replicate n 'x' ++ ['t', 'a', 'i'] ++ ['l']))).toUTF8.data.toList := by
    rw [toList_toUTF8, hchars, List.flatMap_cons, List.flatMap_append, List.flatMap_append, hflood,
      List.append_assoc]
    rfl
  rw [hbytes, lineText_toUTF8 hchars (by decide) (by decide)]
  intro htext
  have hlength := congrArg (fun s => s.toList.length) htext
  rw [hchars] at hlength
  simp only [List.length_cons, List.length_append, List.length_replicate] at hlength
  have htail : "tail".toList.length = 4 := by decide
  simp only [List.length_nil] at hlength
  omega

theorem flood_told {n : Nat} (hn : maxFrameSize < n) :
    FrameBuffer.empty.tellPieces [(List.replicate n 120).toByteArray,
          ([116, 97, 105, 108] ++ [delimiter]).toByteArray]
        = ([.error (.tooLarge n), .ok "tail"], FrameBuffer.empty) ∧
      FrameBuffer.stream [(List.replicate n 120).toByteArray,
          ([116, 97, 105, 108] ++ [delimiter]).toByteArray]
        = joined [List.replicate n 120 ++ [116, 97, 105, 108]] [] ∧
      lineText (List.replicate n 120 ++ [116, 97, 105, 108]) ≠ "tail" := by
  have hflood : delimiter ∉ List.replicate n (120 : UInt8) := by
    intro hmem
    exact absurd (List.eq_of_mem_replicate hmem) (by decide)
  have hlength : (List.replicate n (120 : UInt8)).length = n := List.length_replicate
  have hword : delimiter ∉ ([116, 97, 105, 108] : List UInt8) := by decide
  have htext : lineText [116, 97, 105, 108] = "tail" := by cbv
  have htail : lineText? [116, 97, 105, 108] = some "tail" := by
    rw [lineText?, htext, if_neg (by decide)]
  refine ⟨?_, ?_, ?_⟩
  · have htold := tellPieces_flood hflood (by omega) hword
    rw [hlength, htail] at htold
    exact htold
  · rw [FrameBuffer.stream, List.flatMap_cons, List.flatMap_singleton, List.toList_data_toByteArray,
      List.toList_data_toByteArray, joined_cons, joined_nil, List.append_assoc]
  · cases n with
    | zero => exact absurd hn (Nat.not_lt_zero _)
    | succ n => exact lineText_flood_ne n

/-- A line of more bytes than a frame may have, whose last four come in a second piece: no line of
the stream has the text that is told. -/
theorem tail_told_as_line :
    FrameBuffer.empty.tellPieces [(List.replicate (maxFrameSize + 1) 120).toByteArray,
          ([116, 97, 105, 108] ++ [delimiter]).toByteArray]
        = ([.error (.tooLarge (maxFrameSize + 1)), .ok "tail"], FrameBuffer.empty) ∧
      FrameBuffer.stream [(List.replicate (maxFrameSize + 1) 120).toByteArray,
          ([116, 97, 105, 108] ++ [delimiter]).toByteArray]
        = joined [List.replicate (maxFrameSize + 1) 120 ++ [116, 97, 105, 108]] [] ∧
      lineText (List.replicate (maxFrameSize + 1) 120 ++ [116, 97, 105, 108]) ≠ "tail" :=
  flood_told (Nat.lt_succ_self _)

end KeywordRunner.Wire
