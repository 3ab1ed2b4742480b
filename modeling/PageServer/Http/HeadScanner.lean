import PageServer.Text.Bytes

/-! # Where a head ends

A head ends with the first blank line after its first line. A line is blank when it holds nothing but
carriage returns. The scanner is fed the bytes in portions of any size and keeps what it needs of the
line it is in. It can be fed further after it reported an end.
-/

namespace PageServer.Http

def lineFeed : UInt8 := 10

def carriageReturn : UInt8 := 13

/-- The place in a head: the bytes of the current line, without carriage returns, and the number of
lines before it. -/
structure HeadScanner where
  lineLength : Nat := 0
  lines : Nat := 0
deriving DecidableEq, Repr

namespace HeadScanner

/-- The state after one byte that does not end the head. -/
def step (s : HeadScanner) (byte : UInt8) : HeadScanner :=
  if byte = lineFeed then ⟨0, s.lines + 1⟩
  else if byte = carriageReturn then s
  else ⟨s.lineLength + 1, s.lines⟩

/-- Whether a byte ends the head. -/
def ends (s : HeadScanner) (byte : UInt8) : Bool :=
  byte == lineFeed && s.lineLength == 0 && 0 < s.lines

/-- The state after a portion, and the offset just past the end of the head if it ends there. What
follows the end is not looked at, and the state stays as it was before the last line feed. -/
def feed (s : HeadScanner) : Bytes → HeadScanner × Option Nat
  | [] => (s, none)
  | byte :: rest =>
    if s.ends byte then (s, some 1)
    else
      let (t, found) := (s.step byte).feed rest
      (t, found.map (· + 1))

/-- An end lies inside the portion that was fed. -/
theorem feed_le_length {s : HeadScanner} {bytes : Bytes} {offset : Nat}
    (found : (s.feed bytes).2 = some offset) : offset ≤ bytes.length := by
  induction bytes generalizing s offset with
  | nil => simp [feed] at found
  | cons byte rest ih =>
    simp only [feed] at found
    split at found
    · simp only [Option.some.injEq] at found
      simp [← found]
    · obtain ⟨inner, later, rfl⟩ := Option.map_eq_some_iff.mp found
      simpa using ih later

end HeadScanner

end PageServer.Http
