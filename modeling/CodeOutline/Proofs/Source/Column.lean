/-
CodeOutline/Proofs/Source/Column.lean

Places given by a line and a column of octets.

Such a place is good if the line exists and the column is a boundary of the line without its line
feed (`IsColumn`).  The line begins where nothing is left over from the lines before, so the place
is a cut of the whole source (`exists_isCut_of_isColumn`), and what holds of positions at cuts holds
of it.
-/
import CodeOutline.Proofs.Source.Place

namespace CodeOutline.LineIndex

open Text.Utf8

/-- A line without its line feed. -/
def content (line : Octets) : Octets := line.takeWhile (· != 10)

/-- A line counted from one, and a column at which a piece of it ends, or its beginning. -/
def IsColumn (bs : Octets) (line column : Int) : Prop :=
  1 ≤ line ∧ 0 ≤ column ∧
    ∃ l ∈ (lines bs)[(line - 1).toNat]?, IsBoundary (content l) column.toNat

instance (bs : Octets) (line column : Int) : Decidable (IsColumn bs line column) :=
  inferInstanceAs (Decidable (_ ∧ _ ∧ _))

theorem content_of_notMem {a : Octets} (h : 10 ∉ a) : content a = a := by
  rw [← List.append_nil a, content, List.takeWhile_append_of_pos]
  · rfl
  · intro b hb
    simpa using fun e : b = 10 => h (e ▸ hb)

theorem content_append_lineFeed {a : Octets} (h : 10 ∉ a) : content (a ++ [10]) = a := by
  rw [content, List.takeWhile_append_of_pos]
  · simp
  · intro b hb
    simpa using fun e : b = 10 => h (e ▸ hb)

/-- Where a line of some octets begins, and what stands around it. -/
theorem exists_around_line {bs l : Octets} {i : Nat} (h : (lines bs)[i]? = some l)
    (s c : Nat) : ∃ before rest, bs = before ++ content l ++ rest ∧ EndsLine before ∧
      before.count 10 = i ∧ BeginsAfterLine rest ∧
      (startsFrom (s, c) (lines bs))[i]?.map Prod.fst = some (s + before.length) := by
  induction bs using line_induction generalizing i s c with
  | last a ha =>
    rw [lines_of_notMem ha] at h ⊢
    cases i with
    | zero =>
      cases h
      exact ⟨[], [], by simp [content_of_notMem ha], .inl rfl, rfl, .inl rfl, by simp [startsFrom]⟩
    | succ i => simp at h
  | line a b ha ih =>
    rw [lines_append_lineFeed ha] at h ⊢
    cases i with
    | zero =>
      cases h
      exact ⟨[], 10 :: b, by simp [content_append_lineFeed ha], .inl rfl, rfl, .inr ⟨b, rfl⟩,
        by simp [startsFrom]⟩
    | succ i =>
      -- a later line begins where this one and those up to it end
      rw [List.getElem?_cons_succ] at h
      obtain ⟨before, rest, hb, hbefore, hcount, hrest, hstart⟩ :=
        ih h (s + (a ++ [10]).length) (c + (decode (a ++ [10])).length)
      refine ⟨a ++ 10 :: before, rest, by simp [hb], ?_, ?_, hrest, ?_⟩
      · right
        rcases hbefore with rfl | ⟨x, rfl⟩
        · exact ⟨a, rfl⟩
        · exact ⟨a ++ 10 :: x, by simp⟩
      · rw [List.count_append, List.count_eq_zero_of_not_mem ha, List.count_cons_self, hcount,
          Nat.zero_add]
      · rw [startsFrom, List.getElem?_cons_succ, hstart]
        simp only [List.length_append, List.length_cons, List.length_nil, Option.some.injEq]
        omega

/-- A good place is a cut of the source, at the column counted from where the line begins. -/
theorem exists_isCut_of_isColumn {bs : Octets} {line column : Int} (h : IsColumn bs line column) :
    ∃ start k : Nat, (ofSource bs).lineStart? line = some start ∧ start + column = k ∧
      IsCut bs k := by
  obtain ⟨hline, hcolumn, l, hl, hk⟩ := h
  obtain ⟨before, rest, hbs, hbefore, -, hrest, hstart⟩ := exists_around_line hl 0 0
  refine ⟨before.length, before.length + column.toNat, ?_, by omega, ?_⟩
  · simp only [lineStart?, if_neg (Int.not_lt.mpr hline)]
    rw [if_neg (by omega), ofSource, hstart, Nat.zero_add]
  · rw [hbs]
    exact hk.isCut.of_line hbefore hrest

end CodeOutline.LineIndex
