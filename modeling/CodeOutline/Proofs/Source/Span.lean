/-
CodeOutline/Proofs/Source/Span.lean

Spans between boundaries.

Every piece is at least one octet wide, so the ends of pieces lie at offsets that grow with their
number.  At each of them one character more has been read than at the one before, since there are
as many characters as pieces (`charsBefore_totalWidth`).  So before a boundary there is a last one,
and between the two there is one character (`exists_isGreatest_boundary`).

The end of a span is the position of this character, the number of characters in a span is the
distance of its offsets, and a smaller stretch has a span within (`spanAt_of_isBoundary`).
-/
import CodeOutline.Proofs.Source.Place
import Mathlib.Order.Bounds.Defs

namespace CodeOutline

open Text.Utf8

/-! ### Widths -/

namespace Text.Utf8

theorem width_pos_first (b : Nat) : ∀ p ∈ (first b).1, 0 < p.width := by
  unfold first
  repeat' split
  all_goals simp

/-- A machine that is inside a character only after an octet gives no empty piece. -/
theorem width_pos_step {s : State} (hs : s.Sound) (b : Nat) : ∀ p ∈ (step s b).1, 0 < p.width := by
  cases s with
  | start => exact width_pos_first b
  | inside owed low high value taken =>
    simp only [step]
    split
    · split <;> simp
    · -- the character is broken off, and holds the octets taken
      intro p hp
      rcases List.mem_cons.mp hp with rfl | hp
      · exact hs.2.1
      · exact width_pos_first b p hp

theorem width_pos_piecesFrom {s : State} (hs : s.Sound) (bs : Octets) :
    ∀ p ∈ piecesFrom s bs, 0 < p.width := by
  induction bs generalizing s with
  | nil =>
    cases s with
    | start => simp [piecesFrom, flush]
    | inside owed low high value taken =>
      intro p hp
      obtain rfl := List.mem_singleton.mp hp
      exact hs.2.1
  | cons b bs ih =>
    intro p hp
    rcases List.mem_append.mp hp with hp | hp
    · exact width_pos_step hs _ p hp
    · exact ih (sound_step hs _) p hp

theorem width_pos_pieces (bs : Octets) : ∀ p ∈ pieces bs, 0 < p.width :=
  width_pos_piecesFrom sound_start bs

/-! ### Ends of pieces -/

theorem totalWidth_take_add_one {ps : List Piece} {n : Nat} (h : n < ps.length) :
    totalWidth (ps.take (n + 1)) = totalWidth (ps.take n) + ps[n].width := by
  rw [List.take_add_one, List.getElem?_eq_getElem h, totalWidth_append]
  rfl

theorem totalWidth_take_le (ps : List Piece) {n m : Nat} (h : n ≤ m) :
    totalWidth (ps.take n) ≤ totalWidth (ps.take m) := by
  rw [← Nat.min_eq_left h, ← List.take_take]
  conv_rhs => rw [← List.take_append_drop n (ps.take m), totalWidth_append]
  exact Nat.le_add_right _ _

theorem isBoundary_totalWidth (bs : Octets) (n : Nat) :
    IsBoundary bs (totalWidth ((pieces bs).take n)) := ⟨n, rfl⟩

/-- A boundary is the end of one of the pieces, or the beginning. -/
theorem IsBoundary.exists_le {bs : Octets} {k : Nat} (h : IsBoundary bs k) :
    ∃ n ≤ (pieces bs).length, totalWidth ((pieces bs).take n) = k := by
  obtain ⟨n, hn⟩ := h
  refine ⟨min n (pieces bs).length, Nat.min_le_right _ _, ?_⟩
  rw [← List.take_take, List.take_length]
  exact hn

end Text.Utf8

/-! ### Characters before a boundary -/

namespace LineIndex

variable {bs : Octets} {n : Nat}

theorem charsBefore_totalWidth_succ (h : n < (pieces bs).length) :
    charsBefore bs (totalWidth ((pieces bs).take n))
      < charsBefore bs (totalWidth ((pieces bs).take (n + 1))) := by
  apply charsBefore_lt (isBoundary_totalWidth bs n).isCut _ (isBoundary_totalWidth bs _).le_length
  have hpos := width_pos_pieces bs _ (List.getElem_mem h)
  rw [totalWidth_take_add_one h]
  omega

theorem charsBefore_totalWidth_add (bs : Octets) (n d : Nat) (h : n + d ≤ (pieces bs).length) :
    charsBefore bs (totalWidth ((pieces bs).take n)) + d
      ≤ charsBefore bs (totalWidth ((pieces bs).take (n + d))) := by
  induction d with
  | zero => exact Nat.le_refl _
  | succ d ih =>
    have hlt := charsBefore_totalWidth_succ (show n + d < (pieces bs).length from h)
    have hle := ih (by omega)
    rw [← Nat.add_assoc n d 1]
    omega

/-- Before the end of the first pieces there are as many characters as pieces. -/
theorem charsBefore_totalWidth (h : n ≤ (pieces bs).length) :
    charsBefore bs (totalWidth ((pieces bs).take n)) = n := by
  -- at least one for each piece before, and at least one for each piece after
  obtain ⟨d, hd⟩ := Nat.exists_eq_add_of_le h
  have hbefore := charsBefore_totalWidth_add bs 0 n (by omega)
  have hafter := charsBefore_totalWidth_add bs n d (by omega)
  have hall := charsBefore_le (isBoundary_totalWidth bs (n + d)).isCut
  have hlen : (decode bs).length = (pieces bs).length := List.length_map ..
  rw [Nat.zero_add] at hbefore
  omega

/-- Before a boundary other than the beginning there is a last one, one character earlier. -/
theorem exists_isGreatest_boundary {e : Nat} (he : IsBoundary bs e) (h : 0 < e) :
    ∃ t, IsGreatest {u | IsBoundary bs u ∧ u < e} t ∧
      charsBefore bs e = charsBefore bs t + 1 := by
  obtain ⟨n, hn, rfl⟩ := he.exists_le
  obtain ⟨n, rfl⟩ : ∃ m, n = m + 1 := by
    refine Nat.exists_eq_succ_of_ne_zero ?_
    rintro rfl
    exact absurd h (Nat.lt_irrefl 0)
  have hpos := width_pos_pieces bs _ (List.getElem_mem hn)
  have hwidth := totalWidth_take_add_one hn
  refine ⟨totalWidth ((pieces bs).take n), ⟨⟨isBoundary_totalWidth bs n, by omega⟩, ?_⟩, ?_⟩
  · rintro u ⟨⟨m, rfl⟩, hu⟩
    -- the end of a later piece does not lie before the boundary
    have hm : m ≤ n := by
      by_contra hm
      exact absurd (totalWidth_take_le (pieces bs) (show n + 1 ≤ m by omega)) (by omega)
    exact totalWidth_take_le _ hm
  · rw [charsBefore_totalWidth hn, charsBefore_totalWidth (by omega)]

/-! ### Spans -/

theorem spanAt_of_lt (t : LineIndex) {s e : Nat} (h : s < e) :
    t.spanAt s e = .ok (some (t.position s, t.lastPosition e)) := by
  rw [spanAt, if_neg (by omega)]
  rfl

/-- What is between two boundaries has a span, which does not end before it begins.  It ends at the
last character that begins before the end, and its offsets are as far apart as there are
characters.  Boundaries in between have a span within. -/
theorem spanAt_of_isBoundary {s e : Nat} (hs : IsBoundary bs s)
    (he : IsBoundary bs e) (h : s < e) :
    ∃ p q : Position, (ofSource bs).spanAt s e = .ok (some (p, q)) ∧
      (ofSource bs).positionAt s = .ok p ∧ p.isAfter q = false ∧
      (∃ t : Nat, IsGreatest {u | IsBoundary bs u ∧ u < e} t ∧
        (ofSource bs).positionAt t = .ok q) ∧
      (q.offset : Int) - p.offset + 1 = (decode ((bs.take e).drop s)).length ∧
      ∀ s' e' : Nat, IsBoundary bs s' → IsBoundary bs e' → s ≤ s' → s' < e' → e' ≤ e →
        ∃ p' q' : Position, (ofSource bs).spanAt s' e' = .ok (some (p', q')) ∧
          p'.isBefore p = false ∧ q'.isAfter q = false ∧
          p.offset ≤ p'.offset ∧ q'.offset ≤ q.offset := by
  refine ⟨_, _, spanAt_of_lt _ h, rfl, ?_, ?_, ?_, ?_⟩
  · rw [Position.isAfter_eq]
    exact not_lastPosition_isBefore_position hs.isCut he.isCut h
  · obtain ⟨t, ht, hchars⟩ := exists_isGreatest_boundary he (by omega)
    refine ⟨t, ht, congrArg Except.ok ?_⟩
    rw [position_of_isCut ht.1.1.isCut, lastPosition_of_isCut he.isCut, hchars,
      Nat.add_sub_cancel]
  · have hlt := charsBefore_lt hs.isCut h he.le_length
    have hsplit := congrArg List.length (hs.isCut.decode_take (Nat.le_of_lt h))
    rw [List.length_append] at hsplit
    rw [position_of_isCut hs.isCut, lastPosition_of_isCut he.isCut]
    simp only [Position.ofIndex, charsBefore] at hlt ⊢
    omega
  · intro s' e' hs' he' hss' h' hee'
    refine ⟨_, _, spanAt_of_lt _ h', ?_, ?_, ?_, ?_⟩
    · exact not_position_isBefore hs.isCut hs'.isCut hss'
    · rw [Position.isAfter_eq]
      exact not_lastPosition_isBefore he'.isCut he.isCut hee'
    · rw [position_of_isCut hs.isCut, position_of_isCut hs'.isCut]
      exact charsBefore_mono hs.isCut hss'
    · rw [lastPosition_of_isCut he'.isCut, lastPosition_of_isCut he.isCut]
      exact Nat.sub_le_sub_right (charsBefore_mono he'.isCut hee') 1

/-- A line of two characters that ends with a line feed, and a start of a character that is broken
off. -/
theorem spanAt_of_isBoundary_broken :
    IsBoundary [0xC3, 0xA9, 10, 0xE2, 0x82] 0 ∧ IsBoundary [0xC3, 0xA9, 10, 0xE2, 0x82] 3 ∧
      ∃ p q : Position, (ofSource [0xC3, 0xA9, 10, 0xE2, 0x82]).spanAt 0 3 = .ok (some (p, q)) ∧
        (q.offset : Int) - p.offset + 1 = 2 := by
  have h : IsBoundary [0xC3, 0xA9, 10, 0xE2, 0x82] 0 ∧
      IsBoundary [0xC3, 0xA9, 10, 0xE2, 0x82] 3 := by decide
  obtain ⟨p, q, hspan, -, -, -, hcount, -⟩ := spanAt_of_isBoundary h.1 h.2 (by decide)
  exact ⟨h.1, h.2, p, q, hspan, hcount.trans (by decide)⟩

end LineIndex

end CodeOutline
