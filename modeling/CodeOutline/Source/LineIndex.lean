/-
CodeOutline/Source/LineIndex.lean

From offsets in octets to positions in characters.

A line ends with a line feed, which belongs to it.  The index lists where each line begins, as an
offset in octets and as one in characters.  A position is found by choosing the last line that
begins at or before the offset and counting the characters between the two; octets that are no
text count as the replacement characters they are shown as.

Offsets beyond the end, and line numbers outside the text, can be asked for too: an offset is cut
to the end, and line numbers are taken as places in the list of lines, where numbers below the
first line count from the end.
-/
import CodeOutline.Entity.Position
import CodeOutline.Text.Utf8

namespace CodeOutline

open Text.Utf8 (Octets)

/-- A source text with the beginnings of its lines. -/
structure LineIndex where
  source : Octets
  /-- Offset in octets and in characters at which each line begins. -/
  starts : List (Nat × Nat)

namespace LineIndex

/-- The lines of a text, each with its line feed; the last one has none. -/
def lines : Octets → List Octets
  | [] => [[]]
  | b :: bs =>
    if b = 10 then [b] :: lines bs
    else
      match lines bs with
      | [] => [[b]]
      | l :: ls => (b :: l) :: ls

theorem lines_ne_nil (bs : Octets) : lines bs ≠ [] := by
  cases bs with
  | nil => simp [lines]
  | cons b bs =>
    rw [lines]
    split
    · simp
    · split <;> simp

/-- The lines hold the text. -/
theorem flatten_lines (bs : Octets) : (lines bs).flatten = bs := by
  induction bs with
  | nil => rfl
  | cons b bs ih =>
    rw [lines]
    split
    · simp [ih]
    · split
      · next h => exact absurd h (lines_ne_nil bs)
      · next l ls h => rw [h] at ih; simp_all

/-- The beginnings of lines, the first of which is given. -/
def startsFrom (start : Nat × Nat) : List Octets → List (Nat × Nat)
  | [] => []
  | l :: ls =>
    start :: startsFrom (start.1 + l.length, start.2 + (Text.Utf8.decode l).length) ls

/-- The index of a text. -/
def ofSource (source : Octets) : LineIndex := ⟨source, startsFrom (0, 0) (lines source)⟩

/-- The number of lines. -/
def lineCount (t : LineIndex) : Nat := t.starts.length

/-- The octets from one offset up to another. -/
def slice (t : LineIndex) (start stop : Nat) : Octets := (t.source.take stop).drop start

/-- The number of characters between two offsets. -/
def charCount (t : LineIndex) (start stop : Nat) : Nat :=
  (Text.Utf8.decode (t.slice start stop)).length

/-! ### The line of an offset -/

/-- The number and the beginning of the last line that begins at or before an offset, counted on
from the line that is given. -/
def lineAt (row : Nat) (start : Nat × Nat) : List (Nat × Nat) → Nat → Nat × Nat × Nat
  | [], _ => (row, start)
  | s :: ss, offset => if s.1 ≤ offset then lineAt (row + 1) s ss offset else (row, start)

/-- The number of the line that holds an offset, from zero, and where it begins. -/
def lineOf (t : LineIndex) (offset : Nat) : Nat × Nat × Nat := lineAt 0 (0, 0) t.starts.tail offset

/-! ### Positions -/

/-- The position of the character that begins at an offset. -/
def position (t : LineIndex) (offset : Nat) : Position :=
  let (row, start, chars) := t.lineOf offset
  let before := t.charCount start offset
  { line := row + 1, column := before + 1, offset := chars + before,
    line_pos := by omega, column_pos := by omega }

/-- The position of the last character that ends at or before an offset. -/
def lastPosition (t : LineIndex) (offset : Nat) : Position :=
  if offset = 0 then .origin
  else
    let (row, start, chars) := t.lineOf (offset - 1)
    let before := t.charCount start offset
    { line := row + 1, column := max before 1, offset := chars + before - 1,
      line_pos := by omega, column_pos := by omega }

/-- The first and the last position of a stretch of text, which must not be empty. -/
def span? (t : LineIndex) (start stop : Nat) : Option (Position × Position) :=
  if stop ≤ start then none else some (t.position start, t.lastPosition stop)

theorem span?_eq_none_iff {t : LineIndex} {start stop : Nat} :
    t.span? start stop = none ↔ stop ≤ start := by
  simp [span?]

/-! ### Numbers that need not be offsets -/

/-- The offset at which a line begins, lines being counted from one.  Numbers below one count from
the last line backwards; none where there is no such line. -/
def lineStart? (t : LineIndex) (line : Int) : Option Nat :=
  let i := if line < 1 then line - 1 + t.lineCount else line - 1
  if i < 0 then none else t.starts[i.toNat]?.map Prod.fst

/-- The position at an offset of any sign; a negative one lies before the first line. -/
def positionAt (t : LineIndex) : Int → Except ArgumentError Position
  | .ofNat n => .ok (t.position n)
  | .negSucc _ => .error .lineNotPositive

/-- The last position before an offset of any sign. -/
def lastPositionAt (t : LineIndex) (offset : Int) : Position := t.lastPosition offset.toNat

/-- The span between two offsets of any sign. -/
def spanAt (t : LineIndex) (start stop : Int) :
    Except ArgumentError (Option (Position × Position)) :=
  if stop ≤ start then .ok none
  else do return some (← t.positionAt start, t.lastPositionAt stop)

end LineIndex

end CodeOutline
