import KeywordRunner.Text.Utf8
import KeywordRunner.Wire.Frame

/-!
# Wire.FrameBuffer — cutting a byte stream into lines

Bytes arrive in pieces that need not end where lines do. The buffer keeps what has no line ending
yet; `nextLine` takes the first complete line that is not blank, and gives up a line that grows
past the frame limit without ending.
-/

namespace KeywordRunner.Wire

/-- The largest number of bytes that may wait for a line ending. -/
def maxFrameSize : Nat := 16 * 1024 * 1024

def delimiter : UInt8 := 10

/-- The received bytes not yet taken. -/
structure FrameBuffer where
  bytes : ByteArray

namespace FrameBuffer

def empty : FrameBuffer := ⟨ByteArray.empty⟩

instance : EmptyCollection FrameBuffer := ⟨empty⟩
instance : Inhabited FrameBuffer := ⟨empty⟩

def size (b : FrameBuffer) : Nat := b.bytes.size

def isOverflow (b : FrameBuffer) : Bool := decide (maxFrameSize < b.size)

def feed (b : FrameBuffer) (data : ByteArray) : FrameBuffer := ⟨b.bytes ++ data⟩

/-- The position of the first line ending at or after `start`. -/
def lineEnd? (bytes : ByteArray) (start : Nat) : Option Nat :=
  if h : start < bytes.size then
    if bytes[start] = delimiter then some start else lineEnd? bytes (start + 1)
  else none
termination_by bytes.size - start

theorem lineEnd?_bounds {bytes : ByteArray} {start pos : Nat}
    (h : lineEnd? bytes start = some pos) : start ≤ pos ∧ pos < bytes.size := by
  fun_induction lineEnd? bytes start with
  | case1 start hs heq => cases h; exact ⟨Nat.le_refl _, hs⟩
  | case2 start hs hne ih => exact ⟨Nat.le_of_succ_le (ih h).1, (ih h).2⟩
  | case3 => cases h

def dropBytes (bytes : ByteArray) (start : Nat) : FrameBuffer :=
  ⟨bytes.extract start bytes.size⟩

/-- What `nextLine` finds from a position on: a line with the bytes behind it, or the bytes that
wait for a line ending. Blank lines are passed over. -/
def scan (bytes : ByteArray) (start : Nat) : Option String × FrameBuffer :=
  match h : lineEnd? bytes start with
  | none => (none, dropBytes bytes start)
  | some pos =>
    let text := Text.trim (Utf8.text (bytes.extract start pos))
    if text = "" then
      have := lineEnd?_bounds h
      scan bytes (pos + 1)
    else (some text, dropBytes bytes (pos + 1))
termination_by bytes.size - start

/-- Takes the next line that is not blank, trimmed, when a complete one is there. When none is and
the waiting bytes are more than a frame may have, they are dropped. -/
def nextLine (b : FrameBuffer) : Except FrameFault (Option String) × FrameBuffer :=
  match scan b.bytes 0 with
  | (some line, rest) => (.ok (some line), rest)
  | (none, rest) =>
    if rest.isOverflow then (.error (.tooLarge rest.size), empty) else (.ok none, rest)

/-- `scan` keeps a part of the bytes; with a line taken, not all of them. -/
theorem size_scan_le (bytes : ByteArray) (start : Nat) :
    (scan bytes start).2.size ≤ bytes.size := by
  fun_induction scan bytes start with
  | case1 => simp only [size, dropBytes, ByteArray.size_extract]; omega
  | case2 start pos hpos text hblank hbounds ih => exact ih
  | case3 => simp only [size, dropBytes, ByteArray.size_extract]; omega

theorem size_scan_lt {bytes : ByteArray} {start : Nat} {line : String} {rest : FrameBuffer}
    (h : scan bytes start = (some line, rest)) : rest.size < bytes.size := by
  fun_induction scan bytes start with
  | case1 => simp at h
  | case2 start pos hpos text hblank hbounds ih => exact ih h
  | case3 start pos hpos text hne =>
    have hlt := (lineEnd?_bounds hpos).2
    simp only [Prod.mk.injEq] at h
    rw [← h.2]
    simp only [size, dropBytes, ByteArray.size_extract]
    omega

/-- Whatever it comes to, taking a line leaves fewer bytes; only waiting for more may leave all. -/
theorem size_nextLine_lt {b : FrameBuffer} (h : b.nextLine.1 ≠ .ok none) :
    b.nextLine.2.size < b.size := by
  unfold nextLine at h ⊢
  have hle := size_scan_le b.bytes 0
  split at h
  · next line rest hscan => exact size_scan_lt hscan
  · next rest hscan =>
    rw [hscan] at hle
    by_cases hover : rest.isOverflow = true
    · have hsize : maxFrameSize < rest.size := of_decide_eq_true hover
      have hpos : 0 < b.size := Nat.lt_of_lt_of_le (Nat.zero_lt_of_lt hsize) hle
      simpa [hover, empty, size] using hpos
    · simp [hover] at h

/-- Takes the next line and decodes it; a line that is no message is taken all the same. -/
def nextMessage (b : FrameBuffer) : Except FrameFault (Option Message) × FrameBuffer :=
  match b.nextLine with
  | (.error e, rest) => (.error e, rest)
  | (.ok none, rest) => (.ok none, rest)
  | (.ok (some line), rest) =>
    match decodeFrame line with
    | .ok m => (.ok (some m), rest)
    | .error e => (.error e, rest)

/-- The same of messages: one that came out, or a fault, has used up bytes. -/
theorem size_nextMessage_lt {b : FrameBuffer} (h : b.nextMessage.1 ≠ .ok none) :
    b.nextMessage.2.size < b.size := by
  unfold nextMessage at h ⊢
  split at h
  · next e rest hline =>
    have := size_nextLine_lt (b := b) (by simp [hline])
    simpa [hline] using this
  · simp at h
  · next line rest hline =>
    have hlt := size_nextLine_lt (b := b) (by simp [hline])
    rw [hline] at hlt
    cases decodeFrame line <;> exact hlt

end FrameBuffer

end KeywordRunner.Wire
