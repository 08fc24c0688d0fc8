/-
CodeOutline/Proofs/Source/Offset.lean

Positions of offsets, counted in octets and characters.

An index finds the line of an offset among the beginnings of lines, and counts the characters from
there on.  What it finds can be counted without an index: the line by the line feeds before the
offset, the column by the characters after the last one of them, and the offset in characters by
the characters before it, wherever the offset lies, also inside a character (`exists_positionAt`).
The beginning of the line is listed under its number (`lineStart?_eq`), so the same position is
found by line and column.

The main statement adds what this says of a text that is encoded: a character stands at the offset
of those before it (`positionAt_counts`).
-/
import CodeOutline.Proofs.Outcome
import CodeOutline.Proofs.Source.Place
import CodeOutline.Proofs.Text.Encoded
import CodeOutline.Python.Part
import Mathlib.Data.List.DropRight

namespace CodeOutline.LineIndex

open Outcome Text.Utf8

/-! ### Beginnings of lines -/

/-- The line that is found is listed: its number counts from the line that is given. -/
theorem getElem?_lineAt (row : Nat) (start : Nat × Nat) (rest : List (Nat × Nat)) (offset : Nat) :
    row ≤ (lineAt row start rest offset).1 ∧
      (start :: rest)[(lineAt row start rest offset).1 - row]?
        = some (lineAt row start rest offset).2 := by
  induction rest generalizing row start with
  | nil => simp [lineAt]
  | cons s ss ih =>
    rw [lineAt]
    split
    · -- a later line, which is counted from the next one
      obtain ⟨hle, hget⟩ := ih (row + 1) s
      obtain ⟨d, hd⟩ := Nat.exists_eq_add_of_le hle
      have hindex : row + 1 + d - row = d + 1 := by omega
      rw [hd] at hget ⊢
      refine ⟨by omega, ?_⟩
      rw [hindex, List.getElem?_cons_succ, ← hget]
      congr 1
      omega
    · simp

theorem starts_eq_cons (bs : Octets) :
    (ofSource bs).starts = (0, 0) :: (ofSource bs).starts.tail := by
  rcases e : lines bs with - | ⟨l, ls⟩
  · exact absurd e (lines_ne_nil bs)
  · simp [ofSource, e, startsFrom]

theorem lineStart?_succ (t : LineIndex) (n : Nat) :
    t.lineStart? (n + 1) = t.starts[n]?.map Prod.fst := by
  have hplace : ((n : Int) + 1 - 1).toNat = n := by omega
  simp only [lineStart?]
  rw [if_neg (by omega), if_neg (by omega), hplace]

/-- Where the line of an offset begins is listed under the number of the line. -/
theorem lineStart?_lineOf (bs : Octets) (k : Nat) :
    (ofSource bs).lineStart? (((ofSource bs).lineOf k).1 + 1 : Nat)
      = some ((ofSource bs).lineOf k).2.1 := by
  obtain ⟨-, hget⟩ := getElem?_lineAt 0 (0, 0) (ofSource bs).starts.tail k
  rw [← starts_eq_cons, Nat.sub_zero] at hget
  rw [Int.natCast_succ, lineStart?_succ, lineOf, hget, Option.map_some]

/-! ### What stands before an offset -/

/-- A line that has just begun is all that stands behind the last line feed. -/
theorem rtakeWhile_of_endsLine {before line : Octets} (hbefore : EndsLine before)
    (hline : 10 ∉ line) : (before ++ line).rtakeWhile (· != 10) = line := by
  have hall : ∀ b ∈ line.reverse, (b != 10) = true := by
    intro b hb
    simpa using fun e : b = 10 => hline (e ▸ List.mem_reverse.mp hb)
  rw [List.rtakeWhile, List.reverse_append, List.takeWhile_append_of_pos hall]
  rcases hbefore with rfl | ⟨a, rfl⟩
  · simp
  · simp

/-- An offset has a position, which counts the line feeds before it, the characters behind the last
one of them, and all characters before it.  The line begins at or before the offset. -/
theorem exists_positionAt (bs : Octets) (k : Nat) :
    ∃ (p : Position) (start : Nat), (ofSource bs).positionAt k = .ok p ∧
      p.line = (bs.take k).count 10 + 1 ∧
      p.column = (decode ((bs.take k).rtakeWhile (· != 10))).length + 1 ∧
      p.offset = (decode (bs.take k)).length ∧
      (ofSource bs).lineStart? p.line = some start ∧ start ≤ k := by
  obtain ⟨before, line, htake, hends, hline, hat⟩ := lineOf_ofSource bs k
  have hslice : (ofSource bs).slice before.length k = line := by
    simp [slice, ofSource, htake]
  have hstart := lineStart?_lineOf bs k
  rw [hat] at hstart
  refine ⟨(ofSource bs).position k, before.length, rfl, ?_, ?_, ?_, ?_, ?_⟩
  · simp only [position, hat]
    rw [htake, List.count_append, List.count_eq_zero_of_not_mem hline, Nat.add_zero]
  · simp only [position, hat, charCount, hslice]
    rw [htake, rtakeWhile_of_endsLine hends hline]
  · rw [position_eq]
    rfl
  · simp only [position, hat]
    exact hstart
  · have hle : (before ++ line).length ≤ k := by
      rw [← htake]
      exact List.length_take_le k bs
    rw [List.length_append] at hle
    omega

/-! ### Positions by counting -/

/-- The position of an offset, wherever it lies, counts in its line the line feeds before it, in
its column the characters behind the last one of them, and in its own offset all characters before
it; and it is found by this line and the distance from where the line begins, too.  In an encoded
text a character stands at the offset of those before it. -/
theorem positionAt_counts :
    (∀ (bs : Octets) (k : Nat), ∃ (p : Position) (start : Nat),
      (ofSource bs).positionAt k = .ok p ∧
      p.line = 1 + (bs.take k).count 10 ∧
      p.column = 1 + (decode ((bs.take k).rtakeWhile (· != 10))).length ∧
      p.offset = (decode (bs.take k)).length ∧
      (ofSource bs).lineStart? p.line = some start ∧ start ≤ k ∧
      Python.positionOf (ofSource bs) p.line (k - start) = .ok p) ∧
    ∀ (before : List Char) (c : Char) (after : List Char), ∃ p : Position,
      (ofSource (encode (before ++ c :: after))).positionAt (encode before).length = .ok p ∧
      p.offset = before.length := by
  constructor
  · intro bs k
    obtain ⟨p, start, hp, hline, hcolumn, hoffset, hstart, hle⟩ := exists_positionAt bs k
    refine ⟨p, start, hp, by omega, by omega, hoffset, hstart, hle, ?_⟩
    have hsum : (start : Int) + (k - start) = k := by omega
    rw [Python.positionOf, Python.offsetOf, hstart]
    dsimp only
    rw [ok_bind, hsum, hp]
    rfl
  · intro before c after
    obtain ⟨p, -, hp, -, -, hoffset, -⟩ :=
      exists_positionAt (encode (before ++ c :: after)) (encode before).length
    refine ⟨p, hp, ?_⟩
    rw [hoffset, encode_append, List.take_left, decode_encode]

end CodeOutline.LineIndex
