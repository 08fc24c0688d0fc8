/-
CodeOutline/Proofs/Source/Place.lean

Positions as places in a text.

`Position.ofIndex` is the position of a character by its index, read off the text alone: the line
feeds before it, the distance from the last one, and the index.  On such positions the order of
lines and columns is the order of indices (`ofIndex_isBefore_iff`).

A line index finds the same positions without the text: the position of an offset is that of the
first character it leaves out (`position_eq`), and the last position before an offset is that of
the last character it takes in (`lastPosition_eq`).  At a cut of the octets both are positions in
the whole text.
-/
import CodeOutline.Proofs.Text.Boundary
import CodeOutline.Source.LineIndex

namespace CodeOutline

/-! ### Places in a text -/

/-- Where the line of the character with an index begins: after the last line feed before it. -/
def Text.lineStart (text : List Char) : Nat → Nat
  | 0 => 0
  | i + 1 => if text[i]? = some '\n' then i + 1 else Text.lineStart text i

theorem Text.lineStart_le (text : List Char) (i : Nat) : Text.lineStart text i ≤ i := by
  induction i with
  | zero => exact Nat.le_refl 0
  | succ i ih =>
    rw [Text.lineStart]
    split <;> omega

theorem Text.lineStart_append {a b : List Char} {i : Nat} (h : i ≤ a.length) :
    Text.lineStart (a ++ b) i = Text.lineStart a i := by
  induction i with
  | zero => rfl
  | succ i ih => rw [Text.lineStart, Text.lineStart, List.getElem?_append_left h, ih (by omega)]

/-- A line begins where a text ends that is empty or ends with a line feed. -/
theorem Text.lineStart_eq {before line : List Char} (hb : before = [] ∨ ∃ a, before = a ++ ['\n'])
    (hl : '\n' ∉ line) :
    Text.lineStart (before ++ line) (before ++ line).length = before.length := by
  -- no character of the line moves the beginning, so it stays where the text before ends
  have key : ∀ j ≤ line.length,
      Text.lineStart (before ++ line) (before.length + j) = before.length := by
    intro j hj
    induction j with
    | zero =>
      rw [Nat.add_zero, Text.lineStart_append (Nat.le_refl _)]
      rcases hb with rfl | ⟨a, rfl⟩
      · rfl
      · simp [Text.lineStart]
    | succ j ih =>
      have hne : (before ++ line)[before.length + j]? ≠ some '\n' := by
        rw [List.getElem?_append_right (Nat.le_add_right _ _), Nat.add_sub_cancel_left]
        exact fun e => hl (List.mem_of_getElem? e)
      rw [← Nat.add_assoc, Text.lineStart, if_neg hne]
      exact ih (by omega)
  rw [List.length_append]
  exact key line.length (Nat.le_refl _)

namespace Position

/-- The position of the character with an index. -/
def ofIndex (text : List Char) (i : Nat) : Position where
  line := (text.take i).count '\n' + 1
  column := i - Text.lineStart text i + 1
  offset := i
  line_pos := by omega
  column_pos := by omega

theorem ofIndex_append {a b : List Char} {i : Nat} (h : i ≤ a.length) :
    ofIndex (a ++ b) i = ofIndex a i := by
  simp [ofIndex, Text.lineStart_append h, List.take_append_of_le_length h]

theorem ofIndex_length {before line : List Char} (hb : before = [] ∨ ∃ a, before = a ++ ['\n'])
    (hl : '\n' ∉ line) :
    ofIndex (before ++ line) (before ++ line).length =
      { line := before.count '\n' + 1, column := line.length + 1,
        offset := before.length + line.length, line_pos := by omega, column_pos := by omega } := by
  unfold ofIndex
  congr 1
  · rw [List.take_length, List.count_append, List.count_eq_zero_of_not_mem hl, Nat.add_zero]
  · rw [Text.lineStart_eq hb hl, List.length_append, Nat.add_sub_cancel_left]
  · exact List.length_append

/-! ### The order of places -/

theorem isBefore_trans {p q r : Position} (h : p.isBefore q = true) (h' : q.isBefore r = true) :
    p.isBefore r = true := by
  rw [isBefore_iff] at *
  omega

/-- A character comes before the next one. -/
theorem ofIndex_isBefore_succ {text : List Char} {i : Nat} (h : i < text.length) :
    (ofIndex text i).isBefore (ofIndex text (i + 1)) = true := by
  have hle := Text.lineStart_le text i
  -- either a line ends between the two, or the column is one more
  rw [isBefore_iff]
  simp only [ofIndex, List.take_add_one, List.getElem?_eq_getElem h, Option.toList_some,
    List.count_append, Text.lineStart]
  by_cases hc : text[i] = '\n'
  · simp [hc]
  · right
    simp [hc]
    omega

theorem ofIndex_isBefore_of_lt {text : List Char} {i j : Nat} (h : i < j) (hj : j ≤ text.length) :
    (ofIndex text i).isBefore (ofIndex text j) = true := by
  induction j with
  | zero => omega
  | succ j ih =>
    by_cases hij : i = j
    · subst hij
      exact ofIndex_isBefore_succ hj
    · exact isBefore_trans (ih (by omega) (by omega)) (ofIndex_isBefore_succ hj)

/-- Lines and columns put the characters of a text in the order in which they stand there. -/
theorem ofIndex_isBefore_iff {text : List Char} {i j : Nat} (hi : i ≤ text.length)
    (hj : j ≤ text.length) : (ofIndex text i).isBefore (ofIndex text j) = true ↔ i < j := by
  constructor
  · intro h
    by_contra hij
    rcases Nat.lt_or_eq_of_le (Nat.le_of_not_lt hij) with hlt | rfl
    · have := isBefore_trans h (ofIndex_isBefore_of_lt hlt hi)
      rw [isBefore_irrefl] at this
      cases this
    · rw [isBefore_irrefl] at h
      cases h
  · exact fun h => ofIndex_isBefore_of_lt h hj

end Position

/-! ### Lines of octets -/

namespace LineIndex

open Text.Utf8

theorem lines_of_notMem {a : Octets} (h : 10 ∉ a) : lines a = [a] := by
  induction a with
  | nil => rfl
  | cons b a ih =>
    rw [List.mem_cons, not_or] at h
    rw [lines, if_neg (Ne.symm h.1), ih h.2]

theorem lines_append_lineFeed {a : Octets} (h : 10 ∉ a) (b : Octets) :
    lines (a ++ 10 :: b) = (a ++ [10]) :: lines b := by
  induction a with
  | nil => rfl
  | cons x a ih =>
    rw [List.mem_cons, not_or] at h
    rw [List.cons_append, lines, if_neg (Ne.symm h.1), ih h.2]
    rfl

/-- The line of an offset, among lines that begin at the given places: the octets up to the offset
are whole lines and a piece of the next one. -/
theorem lineAt_startsFrom (bs : Octets) (row s c k : Nat) :
    ∃ before line : Octets, bs.take k = before ++ line ∧ EndsLine before ∧ 10 ∉ line ∧
      lineAt row (s, c) (startsFrom (s, c) (lines bs)).tail (s + k)
        = (row + before.count 10, s + before.length, c + (decode before).length) := by
  induction bs using line_induction generalizing row s c k with
  | last a ha =>
    refine ⟨[], a.take k, rfl, .inl rfl, fun h => ha (List.mem_of_mem_take h), ?_⟩
    simp [lines_of_notMem ha, startsFrom, lineAt]
  | line a b ha ih =>
    rw [lines_append_lineFeed ha, startsFrom, List.tail_cons]
    rcases e : lines b with - | ⟨l, ls⟩
    · exact absurd e (lines_ne_nil b)
    rw [startsFrom, lineAt]
    by_cases hk : s + (a ++ [10]).length ≤ s + k
    · -- the offset lies beyond this line, in one of the lines that follow
      obtain ⟨k, rfl⟩ : ∃ k', k = (a ++ [10]).length + k' := ⟨k - (a ++ [10]).length, by omega⟩
      obtain ⟨before, line, htake, hends, hline, hat⟩ :=
        ih (row + 1) (s + (a ++ [10]).length) (c + (decode (a ++ [10])).length) k
      refine ⟨a ++ 10 :: before, line, ?_, ?_, hline, ?_⟩
      · rw [show a ++ 10 :: b = (a ++ [10]) ++ b by simp, List.take_length_add_append, htake]
        simp
      · right
        rcases hends with rfl | ⟨x, rfl⟩
        · exact ⟨a, rfl⟩
        · exact ⟨a ++ 10 :: x, by simp⟩
      · rw [if_pos hk, ← Nat.add_assoc]
        rw [e, startsFrom, List.tail_cons] at hat
        refine hat.trans ?_
        rw [decode_append_lineFeed, decode_append_lineFeed]
        simp only [List.count_append, List.count_eq_zero_of_not_mem ha, List.count_cons_self,
          List.length_append, List.length_cons, decode_nil, List.length_nil, Prod.mk.injEq]
        omega
    · -- the offset lies in this line, before its line feed
      rw [if_neg hk]
      have hka : k ≤ a.length := by
        simp only [List.length_append, List.length_singleton] at hk
        omega
      refine ⟨[], a.take k, ?_, .inl rfl, fun h => ha (List.mem_of_mem_take h), by simp⟩
      rw [List.take_append_of_le_length hka, List.nil_append]

/-- The line that an index finds for an offset. -/
theorem lineOf_ofSource (bs : Octets) (k : Nat) :
    ∃ before line : Octets, bs.take k = before ++ line ∧ EndsLine before ∧ 10 ∉ line ∧
      (ofSource bs).lineOf k = (before.count 10, before.length, (decode before).length) := by
  obtain ⟨before, line, htake, hends, hline, hat⟩ := lineAt_startsFrom bs 0 0 0 k
  refine ⟨before, line, htake, hends, hline, ?_⟩
  simpa [lineOf, ofSource] using hat

/-! ### Positions of offsets -/

theorem endsLine_decode {bs : Octets} (h : EndsLine bs) :
    decode bs = [] ∨ ∃ a, decode bs = a ++ ['\n'] := by
  rcases h with rfl | ⟨a, rfl⟩
  · exact .inl rfl
  · exact .inr ⟨decode a, decode_append_lineFeed a []⟩

/-- The position of an offset is that of the first character that the offset leaves out. -/
theorem position_eq (bs : Octets) (k : Nat) :
    (ofSource bs).position k = .ofIndex (decode (bs.take k)) (decode (bs.take k)).length := by
  obtain ⟨before, line, htake, hends, hline, hat⟩ := lineOf_ofSource bs k
  have hslice : (ofSource bs).slice before.length k = line := by
    simp [slice, ofSource, htake]
  rw [htake, decode_append_of_endsLine hends,
    Position.ofIndex_length (endsLine_decode hends) (lineFeed_notMem_decode hline)]
  simp only [position, hat, charCount, hslice, count_lineFeed_decode]

/-- The last position before an offset is that of the last character that the offset takes in. -/
theorem lastPosition_eq {bs : Octets} {k : Nat} (h : k ≤ bs.length) :
    (ofSource bs).lastPosition k
      = .ofIndex (decode (bs.take k)) ((decode (bs.take k)).length - 1) := by
  cases k with
  | zero => rfl
  | succ k =>
    -- the line is that of the last octet before the offset, which may be its line feed
    obtain ⟨before, line, htake, hends, hline, hat⟩ := lineOf_ofSource bs k
    have htake' : bs.take (k + 1) = before ++ (line ++ [bs[k]]) := by
      rw [List.take_add_one, List.getElem?_eq_getElem h, htake]
      simp
    have hslice : (ofSource bs).slice before.length (k + 1) = line ++ [bs[k]] := by
      simp [slice, ofSource, htake']
    -- all but the last character of the line is read without a line feed
    obtain ⟨d, c, hd, hnl⟩ : ∃ d c, decode (line ++ [bs[k]]) = d ++ [c] ∧ '\n' ∉ d := by
      by_cases hb : bs[k] = 10
      · exact ⟨decode line, '\n', by rw [hb, decode_append_lineFeed]; rfl,
          lineFeed_notMem_decode hline⟩
      · have hnot : '\n' ∉ decode (line ++ [bs[k]]) :=
          lineFeed_notMem_decode (by simp [hline, Ne.symm hb])
        have hne : decode (line ++ [bs[k]]) ≠ [] := decode_ne_nil (by simp)
        refine ⟨_, _, (List.dropLast_append_getLast hne).symm, ?_⟩
        exact fun hm => hnot (List.dropLast_subset _ hm)
    have hdecode : decode (bs.take (k + 1)) = (decode before ++ d) ++ [c] := by
      rw [htake', decode_append_of_endsLine hends, hd, List.append_assoc]
    rw [hdecode, List.length_append, List.length_singleton, Nat.add_sub_cancel,
      Position.ofIndex_append (Nat.le_refl _),
      Position.ofIndex_length (endsLine_decode hends) hnl]
    simp only [lastPosition, Nat.add_sub_cancel, hat, charCount, hslice, count_lineFeed_decode, hd]
    simp

/-! ### Cuts as places -/

/-- The number of characters before an offset. -/
def charsBefore (bs : Octets) (k : Nat) : Nat := (decode (bs.take k)).length

theorem decode_eq_of_isCut {bs : Octets} {k : Nat} (h : IsCut bs k) :
    decode bs = decode (bs.take k) ++ decode (bs.drop k) := by
  simpa using h.decode_take h.1

theorem charsBefore_le {bs : Octets} {k : Nat} (h : IsCut bs k) :
    charsBefore bs k ≤ (decode bs).length := by
  rw [decode_eq_of_isCut h, List.length_append]
  exact Nat.le_add_right _ _

theorem charsBefore_mono {bs : Octets} {k l : Nat} (h : IsCut bs k) (hl : k ≤ l) :
    charsBefore bs k ≤ charsBefore bs l := by
  rw [charsBefore, charsBefore, h.decode_take hl, List.length_append]
  exact Nat.le_add_right _ _

/-- A stretch of octets that begins at a cut and is not empty holds a character. -/
theorem charsBefore_lt {bs : Octets} {k l : Nat} (h : IsCut bs k) (hl : k < l)
    (hlen : l ≤ bs.length) : charsBefore bs k < charsBefore bs l := by
  have hne : (bs.take l).drop k ≠ [] := by
    apply List.ne_nil_of_length_pos
    simp only [List.length_drop, List.length_take]
    omega
  have hpos := List.length_pos_iff.mpr (decode_ne_nil hne)
  rw [charsBefore, charsBefore, h.decode_take (Nat.le_of_lt hl), List.length_append]
  omega

theorem position_of_isCut {bs : Octets} {k : Nat} (h : IsCut bs k) :
    (ofSource bs).position k = .ofIndex (decode bs) (charsBefore bs k) := by
  rw [position_eq, decode_eq_of_isCut h, charsBefore, Position.ofIndex_append (Nat.le_refl _)]

theorem lastPosition_of_isCut {bs : Octets} {k : Nat} (h : IsCut bs k) :
    (ofSource bs).lastPosition k = .ofIndex (decode bs) (charsBefore bs k - 1) := by
  rw [lastPosition_eq h.1, decode_eq_of_isCut h, charsBefore,
    Position.ofIndex_append (Nat.sub_le _ _)]

/-! ### The order of cuts -/

/-- Of two cuts the one that is not before the other has no earlier position. -/
theorem not_position_isBefore {bs : Octets} {k l : Nat} (hk : IsCut bs k) (hl : IsCut bs l)
    (h : k ≤ l) : ((ofSource bs).position l).isBefore ((ofSource bs).position k) = false := by
  rw [Bool.eq_false_iff, position_of_isCut hk, position_of_isCut hl, ne_eq,
    Position.ofIndex_isBefore_iff (charsBefore_le hl) (charsBefore_le hk)]
  exact Nat.not_lt.mpr (charsBefore_mono hk h)

theorem not_lastPosition_isBefore {bs : Octets} {k l : Nat} (hk : IsCut bs k) (hl : IsCut bs l)
    (h : k ≤ l) :
    ((ofSource bs).lastPosition l).isBefore ((ofSource bs).lastPosition k) = false := by
  have hkl := charsBefore_mono hk h
  have hle := charsBefore_le hl
  rw [Bool.eq_false_iff, lastPosition_of_isCut hk, lastPosition_of_isCut hl, ne_eq,
    Position.ofIndex_isBefore_iff (by omega) (by omega)]
  omega

/-- A stretch between two cuts that is not empty does not end before it begins. -/
theorem not_lastPosition_isBefore_position {bs : Octets} {k l : Nat} (hk : IsCut bs k)
    (hl : IsCut bs l) (h : k < l) :
    ((ofSource bs).lastPosition l).isBefore ((ofSource bs).position k) = false := by
  have hkl := charsBefore_lt hk h hl.1
  have hle := charsBefore_le hl
  rw [Bool.eq_false_iff, position_of_isCut hk, lastPosition_of_isCut hl, ne_eq,
    Position.ofIndex_isBefore_iff (by omega) (by omega)]
  omega

end LineIndex

/-! ### Places -/

namespace Position

/-- The position of a character of a text, or of its end. -/
structure IsPlace (text : List Char) (p : Position) : Prop where
  offset : p.offset ≤ text.length
  line : p.line = (text.take p.offset).count '\n' + 1
  column : p.column = p.offset - Text.lineStart text p.offset + 1

theorem isPlace_iff {text : List Char} {p : Position} :
    p.IsPlace text ↔ p.offset ≤ text.length ∧ p = ofIndex text p.offset := by
  constructor
  · rintro ⟨hoffset, hline, hcolumn⟩
    refine ⟨hoffset, ?_⟩
    obtain ⟨line, column, offset, _, _⟩ := p
    simp only at hline hcolumn
    subst hline hcolumn
    rfl
  · rintro ⟨hoffset, h⟩
    exact ⟨hoffset, congrArg Position.line h, congrArg Position.column h⟩

theorem isPlace_ofIndex {text : List Char} {i : Nat} (h : i ≤ text.length) :
    (ofIndex text i).IsPlace text := ⟨h, rfl, rfl⟩

/-- Lines and columns put places in the order in which they stand in the text. -/
theorem IsPlace.isBefore_iff {text : List Char} {p q : Position} (hp : p.IsPlace text)
    (hq : q.IsPlace text) : p.isBefore q = true ↔ p.offset < q.offset := by
  obtain ⟨hpl, hpe⟩ := isPlace_iff.mp hp
  obtain ⟨hql, hqe⟩ := isPlace_iff.mp hq
  rw [hpe, hqe]
  exact ofIndex_isBefore_iff hpl hql

end Position

namespace LineIndex

open Text.Utf8

theorem isPlace_position {bs : Octets} {k : Nat} (h : IsCut bs k) :
    ((ofSource bs).position k).IsPlace (decode bs) := by
  rw [position_of_isCut h]
  exact Position.isPlace_ofIndex (charsBefore_le h)

theorem isPlace_lastPosition {bs : Octets} {k : Nat} (h : IsCut bs k) :
    ((ofSource bs).lastPosition k).IsPlace (decode bs) := by
  rw [lastPosition_of_isCut h]
  exact Position.isPlace_ofIndex (Nat.le_trans (Nat.sub_le _ _) (charsBefore_le h))

end LineIndex

end CodeOutline
