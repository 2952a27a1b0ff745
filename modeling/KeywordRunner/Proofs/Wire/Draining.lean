import KeywordRunner.Proofs.Wire.Stream

/-!
# Proofs.Wire.Draining — a buffer that is asked until it has no more

`Asked` says everything that asking a buffer can come to: it has nothing but blank lines and a short
beginning of a line, or a line is taken, or too many bytes are given up. In the last two cases bytes
are used up, whatever the answer is, so asking on comes to an end, and it ends in the first.

* **`nextLine_eq_iff`**, **`nextMessage_eq_iff`** — lines and messages are asked for in this way.
* **`takeAll_settles`** — all that a buffer has is told after as many answers as it has bytes, at
  most, and then it holds the short beginning of a line.
-/

namespace KeywordRunner.Wire

/-- A complete line that is passed over. -/
def IsBlankLine (l : List UInt8) : Prop := delimiter ∉ l ∧ lineText l = ""

section FirstLine

variable {ls : List (List UInt8)}

theorem blank_of_firstLine?_none (h : firstLine? ls = none) : ∀ l ∈ ls, lineText l = "" := by
  induction ls with
  | nil => exact fun l hl => absurd hl List.not_mem_nil
  | cons l ls ih =>
    rw [firstLine?] at h
    split at h
    · next hblank => exact List.forall_mem_cons.2 ⟨hblank, ih h⟩
    · exact absurd h (by simp)

theorem split_of_firstLine?_some {t : String} {later : List (List UInt8)}
    (h : firstLine? ls = some (t, later)) :
    ∃ blanks l, ls = blanks ++ l :: later ∧ (∀ l ∈ blanks, lineText l = "") ∧
      lineText l = t ∧ t ≠ "" := by
  induction ls with
  | nil => exact absurd h (by simp [firstLine?])
  | cons l ls ih =>
    rw [firstLine?] at h
    split at h
    · next hblank =>
      obtain ⟨blanks, l', rfl, hblanks, htext⟩ := ih h
      exact ⟨l :: blanks, l', rfl, List.forall_mem_cons.2 ⟨hblank, hblanks⟩, htext⟩
    · next hne =>
      obtain ⟨rfl, rfl⟩ := Prod.mk.inj (Option.some.inj h)
      exact ⟨[], l, rfl, fun l hl => absurd hl List.not_mem_nil, rfl, hne⟩

/-- Blank lines are passed over. -/
theorem firstLine?_append {blanks : List (List UInt8)} (h : ∀ l ∈ blanks, lineText l = "")
    (ls : List (List UInt8)) : firstLine? (blanks ++ ls) = firstLine? ls := by
  induction blanks with
  | nil => rfl
  | cons l blanks ih =>
    obtain ⟨hl, hblanks⟩ := List.forall_mem_cons.1 h
    rw [List.cons_append, firstLine?, if_pos hl, ih hblanks]

end FirstLine

namespace FrameBuffer

variable {α : Type} {read : String → Except FrameFault α}

/-! ## One question -/

/-- Everything that asking a buffer can come to, if the texts of lines are read by `read`: the
answer, and what the buffer holds then. -/
inductive Asked (read : String → Except FrameFault α) (b : FrameBuffer) :
    Except FrameFault (Option α) → FrameBuffer → Prop where
  /-- There are only blank lines, and they are dropped. -/
  | waits {blanks : List (List UInt8)} {rest : List UInt8} (hb : b.waiting = joined blanks rest)
      (hblanks : ∀ l ∈ blanks, IsBlankLine l) (hrest : delimiter ∉ rest)
      (hshort : rest.length ≤ maxFrameSize) :
      Asked read b (.ok none) (ofList rest)
  /-- The first line that is not blank is taken, and read. -/
  | takes {blanks : List (List UInt8)} {l rest : List UInt8}
      (hb : b.waiting = joined blanks (l ++ delimiter :: rest))
      (hblanks : ∀ l ∈ blanks, IsBlankLine l) (hl : delimiter ∉ l) (htext : lineText l ≠ "") :
      Asked read b ((read (lineText l)).map some) (ofList rest)
  /-- Behind blank lines there is only the beginning of a line, which is too long already, and is
  given up. -/
  | overflows {blanks : List (List UInt8)} {rest : List UInt8} (hb : b.waiting = joined blanks rest)
      (hblanks : ∀ l ∈ blanks, IsBlankLine l) (hrest : delimiter ∉ rest)
      (hlong : maxFrameSize < rest.length) :
      Asked read b (.error (.tooLarge rest.length)) empty

/-- Asks for a line, and reads its text. -/
def ask (read : String → Except FrameFault α) (b : FrameBuffer) :
    Except FrameFault (Option α) × FrameBuffer :=
  match b.nextLine with
  | (.error e, rest) => (.error e, rest)
  | (.ok none, rest) => (.ok none, rest)
  | (.ok (some t), rest) => ((read t).map some, rest)

theorem nextLine_eq_ask (b : FrameBuffer) : b.nextLine = b.ask .ok := by
  unfold ask
  rcases b.nextLine with ⟨_ | _ | _, rest⟩ <;> rfl

theorem nextMessage_eq_ask (b : FrameBuffer) : b.nextMessage = b.ask decodeFrame := by
  unfold nextMessage ask
  rcases b.nextLine with ⟨_ | _ | t, rest⟩
  · rfl
  · rfl
  · dsimp only
    cases decodeFrame t <;> rfl

theorem asked_ask (read : String → Except FrameFault α) (b : FrameBuffer) :
    Asked read b (b.ask read).1 (b.ask read).2 := by
  obtain ⟨hlines, hrest⟩ := delimiter_not_mem_cut b.waiting
  have hb : b.waiting = joined (cut b.waiting).1 b.rest := (joined_cut b.waiting).symm
  unfold ask
  cases hfirst : firstLine? (cut b.waiting).1 with
  | none =>
    have hblanks : ∀ l ∈ (cut b.waiting).1, IsBlankLine l := fun l hl =>
      ⟨hlines l hl, blank_of_firstLine?_none hfirst l hl⟩
    rw [nextLine_of_none (texts_of_firstLine?_none hfirst)]
    by_cases hlong : maxFrameSize < b.rest.length
    · rw [if_pos hlong]
      exact .overflows hb hblanks hrest hlong
    · rw [if_neg hlong]
      exact .waits hb hblanks hrest (Nat.le_of_not_lt hlong)
  | some found =>
    obtain ⟨t, later⟩ := found
    obtain ⟨blanks, l, hsplit, hblanks, rfl, hne⟩ := split_of_firstLine?_some hfirst
    rw [hsplit] at hlines hb
    rw [joined_lines_append, joined_cons] at hb
    have hnext : b.nextLine = (.ok (some (lineText l)), ofList (joined later b.rest)) := by
      rw [nextLine_eq, hfirst]
    rw [hnext]
    exact .takes hb (fun l hl => ⟨hlines l (List.mem_append_left _ hl), hblanks l hl⟩)
      (hlines l (List.mem_append_right _ List.mem_cons_self)) hne

/-- Blank lines with the beginning of a line behind them are no line. -/
theorem nextLine_of_blanks {b : FrameBuffer} {blanks : List (List UInt8)} {rest : List UInt8}
    (hb : b.waiting = joined blanks rest) (hblanks : ∀ l ∈ blanks, IsBlankLine l)
    (hrest : delimiter ∉ rest) :
    b.nextLine =
      if maxFrameSize < rest.length then (.error (.tooLarge rest.length), empty)
      else (.ok none, ofList rest) := by
  have hcut : cut b.waiting = (blanks, rest) := by
    rw [hb, cut_joined_rest (fun l hl => (hblanks l hl).1) hrest]
  have hnone : firstLine? blanks = none := by
    rw [← List.append_nil blanks, firstLine?_append fun l hl => (hblanks l hl).2]
    rfl
  have htexts : b.texts = [] := by
    rw [texts, hcut]
    exact texts_of_firstLine?_none hnone
  have hkept : b.rest = rest := congrArg Prod.snd hcut
  rw [nextLine_of_none htexts, hkept]

/-- There is one answer, and nothing else that the buffer can hold then. -/
theorem Asked.eq_ask {b rest : FrameBuffer} {answer : Except FrameFault (Option α)}
    (h : Asked read b answer rest) : b.ask read = (answer, rest) := by
  unfold ask
  cases h with
  | waits hb hblanks hrest hshort =>
    rw [nextLine_of_blanks hb hblanks hrest, if_neg (Nat.not_lt.2 hshort)]
  | @takes blanks l rest hb hblanks hl htext =>
    have hlines : ∀ l ∈ blanks, delimiter ∉ l := fun l hl => (hblanks l hl).1
    have hfirst : firstLine? (cut b.waiting).1 = some (lineText l, (cut rest).1) := by
      rw [hb, cut_joined hlines, cut_line hl, firstLine?_append fun l hl => (hblanks l hl).2,
        firstLine?, if_neg htext]
    have hkept : b.rest = (cut rest).2 := by
      show (cut b.waiting).2 = _
      rw [hb, cut_joined hlines, cut_line hl]
    have hnext : b.nextLine = (.ok (some (lineText l)), ofList rest) := by
      rw [nextLine_eq, hfirst, hkept]
      dsimp only
      rw [joined_cut]
    rw [hnext]
  | overflows hb hblanks hrest hlong =>
    rw [nextLine_of_blanks hb hblanks hrest, if_pos hlong]

theorem ask_eq_iff {b rest : FrameBuffer} {answer : Except FrameFault (Option α)} :
    b.ask read = (answer, rest) ↔ Asked read b answer rest := by
  refine ⟨fun h => ?_, Asked.eq_ask⟩
  have hasked := asked_ask read b
  rw [h] at hasked
  exact hasked

/-- **Asking for a line** comes to this and to nothing else. -/
theorem nextLine_eq_iff {b rest : FrameBuffer} {answer : Except FrameFault (Option String)} :
    b.nextLine = (answer, rest) ↔ Asked .ok b answer rest := by
  rw [nextLine_eq_ask, ask_eq_iff]

/-- **Asking for a message** comes to the same, the line being decoded. -/
theorem nextMessage_eq_iff {b rest : FrameBuffer} {answer : Except FrameFault (Option Message)} :
    b.nextMessage = (answer, rest) ↔ Asked decodeFrame b answer rest := by
  rw [nextMessage_eq_ask, ask_eq_iff]

/-- A buffer with a frame in front has its message. -/
theorem nextMessage_of_frame {b : FrameBuffer} {m : Message} {rest : List UInt8}
    (hfits : ∀ j ∈ m.args, j.Fits 125) (hreals : ∀ j ∈ m.args, ∀ n ∈ j.reals, n.ReadsBack)
    (hb : b.waiting = lineBytes m ++ delimiter :: rest) :
    b.nextMessage = (.ok (some m), ofList rest) := by
  have hline : delimiter ∉ lineBytes m := delimiter_not_mem_utf8 (newline_not_mem_frameLine m)
  have hverdict := verdict?_lineBytes hfits hreals
  unfold verdict? at hverdict
  split at hverdict
  · exact absurd hverdict (by simp)
  · next htext =>
    have hdecoded : decodeFrame (lineText (lineBytes m)) = .ok m := Option.some.inj hverdict
    rw [← joined_nil (lineBytes m ++ delimiter :: rest)] at hb
    have hasked : Asked decodeFrame b ((decodeFrame (lineText (lineBytes m))).map some)
        (ofList rest) := .takes hb (fun l hl => absurd hl List.not_mem_nil) hline htext
    rw [hdecoded] at hasked
    exact nextMessage_eq_iff.2 hasked

/-- A buffer that has no answer holds the short beginning of a line. -/
theorem Asked.settled {b rest : FrameBuffer} (h : Asked read b (.ok none) rest) :
    delimiter ∉ rest.waiting ∧ rest.size ≤ maxFrameSize := by
  generalize hanswer : (.ok none : Except FrameFault (Option α)) = answer at h
  cases h with
  | waits hb hblanks hrest hshort =>
    rw [size_eq_length, waiting_ofList]
    exact ⟨hrest, hshort⟩
  | @takes blanks l rest hb hblanks hl htext =>
    -- a line that is taken gives an answer, or a fault
    cases hread : read (lineText l) <;> simp [hread, Except.map] at hanswer
  | overflows hb hblanks hrest hlong => exact absurd hanswer (by simp)

/-- What is behind a line ending is behind all that has none. -/
theorem length_lt_of_append_eq {old new front rest : List UInt8} (hold : delimiter ∉ old)
    (h : old ++ new = front ++ delimiter :: rest) : rest.length < new.length := by
  rcases List.append_eq_append_iff.1 h with ⟨more, _, hnew⟩ | ⟨more, hmore, hnew⟩
  · rw [hnew, List.length_append, List.length_cons]
    omega
  · cases more with
    | nil =>
      rw [← List.nil_append new, ← hnew, List.length_cons]
      exact Nat.lt_succ_self _
    | cons d more =>
      have hd : delimiter = d := (List.cons.inj hnew).1
      exact absurd (hmore ▸ List.mem_append_right front (hd ▸ List.mem_cons_self)) hold

/-- An answer uses up all that was waiting for it. -/
theorem Asked.size_le {b rest : FrameBuffer} {answer : Except FrameFault (Option α)}
    {old new : List UInt8} (h : Asked read b answer rest) (hanswer : answer ≠ .ok none)
    (hb : b.waiting = old ++ new) (hold : delimiter ∉ old) : rest.size ≤ new.length := by
  cases h with
  | waits _ _ _ _ => exact absurd rfl hanswer
  | takes hlines _ _ _ =>
    rw [hb, ← joined_append] at hlines
    rw [size_eq_length, waiting_ofList]
    exact Nat.le_of_lt (length_lt_of_append_eq hold hlines)
  | overflows _ _ _ _ => exact Nat.zero_le _

/-! ## Asking on -/

/-- There is no message, or there is an answer and bytes have been used up. -/
theorem nextMessage_cases (b : FrameBuffer) :
    (∃ rest, b.nextMessage = (.ok none, rest)) ∨
      ∃ (v : Except FrameFault Message) (rest : FrameBuffer),
        b.nextMessage = (v.map some, rest) ∧ rest.size < b.size := by
  rcases nextLine_cases b with ⟨rest, hnext⟩ | ⟨v, rest, hnext, hlt⟩
  · refine Or.inl ⟨rest, ?_⟩
    rw [nextMessage_eq_ask, ask, hnext]
  · exact Or.inr ⟨v >>= decodeFrame, rest, nextMessage_of_line hnext, hlt⟩

theorem settled_of_none {b rest : FrameBuffer} (h : b.nextMessage = (.ok none, rest)) :
    delimiter ∉ rest.waiting ∧ rest.size ≤ maxFrameSize := (nextMessage_eq_iff.1 h).settled

/-- **Asking on ends**: after as many answers as there are bytes, at most, a buffer holds the short
beginning of a line. -/
theorem takeAll_settles (b : FrameBuffer) :
    b.takeAll.1.length ≤ b.size ∧ delimiter ∉ b.takeAll.2.waiting ∧
      b.takeAll.2.size ≤ maxFrameSize := by
  -- each answer has used up bytes
  induction hsize : b.size using Nat.strongRecOn generalizing b with
  | ind n ih =>
    rcases nextMessage_cases b with ⟨rest, hnext⟩ | ⟨v, rest, hnext, hlt⟩
    · rw [takeAll_of_none hnext]
      exact ⟨Nat.zero_le n, settled_of_none hnext⟩
    · obtain ⟨hlength, hsettled⟩ := ih rest.size (hsize ▸ hlt) rest rfl
      rw [takeAll_of_some hnext, List.length_cons]
      exact ⟨by omega, hsettled⟩

end FrameBuffer

end KeywordRunner.Wire
