/-
CodeOutline/Proofs/Text/Boundary.lean

Where octets may be cut without changing what they are read as.

An offset is a boundary if the pieces before it add up to it.  The machine that reads octets stops
at an octet if that octet does not continue a character; then what stands before is read as if
nothing followed (`decode_append`).  It stops at every boundary (`IsBoundary.isCut`), so a text cut
at a boundary is the text before and the text after (`IsCut.decode_take`), and it stops at every
line feed, so lines are read one by one (`decode_append_lineFeed`).

A piece that is broken off by the next octet and one that is broken off by the end differ in their
flaw, so it is the characters that are kept by a cut, not the pieces.
-/
import CodeOutline.Text.Utf8
import Mathlib.Data.List.Basic

namespace CodeOutline.Text.Utf8

/-- An offset at which a piece ends, or the beginning. -/
def IsBoundary (bs : Octets) (k : Nat) : Prop := ∃ n, totalWidth ((pieces bs).take n) = k

theorem isBoundary_iff_any {bs : Octets} {k : Nat} :
    IsBoundary bs k ↔ (List.range ((pieces bs).length + 1)).any
      (fun n => totalWidth ((pieces bs).take n) == k) = true := by
  simp only [List.any_eq_true, List.mem_range, beq_iff_eq]
  constructor
  · rintro ⟨n, h⟩
    by_cases hn : n ≤ (pieces bs).length
    · exact ⟨n, Nat.lt_succ_of_le hn, h⟩
    · refine ⟨(pieces bs).length, Nat.lt_succ_self _, ?_⟩
      rw [List.take_of_length_le (Nat.le_of_not_le hn)] at h
      rw [List.take_length, h]
  · rintro ⟨n, -, h⟩
    exact ⟨n, h⟩

instance (bs : Octets) (k : Nat) : Decidable (IsBoundary bs k) :=
  decidable_of_iff' _ isBoundary_iff_any

/-! ### States that the machine reaches -/

/-- Inside a character at least one octet is read, line feeds do not continue it, and whatever
does gives a greater number than that of the line feed. -/
def State.Sound : State → Prop
  | .start => True
  | .inside _ low _ value taken => 0x80 ≤ low ∧ 1 ≤ taken ∧ 10 < value * 64 + (low - 0x80)

theorem sound_start : State.start.Sound := trivial

theorem sound_first (b : Nat) : (first b).2.Sound := by
  unfold first
  repeat' split
  all_goals simp only [State.Sound]
  all_goals omega

theorem sound_step {s : State} (hs : s.Sound) (b : Nat) : (step s b).2.Sound := by
  cases s with
  | start => exact sound_first b
  | inside owed low high value taken =>
    obtain ⟨hlow, -, hvalue⟩ := hs
    simp only [step]
    split
    · next hb =>
      have hb : low ≤ b ∧ b ≤ high := by simpa using hb
      split
      · trivial
      · -- what is read so far only grows
        simp only [State.Sound]
        omega
    · exact sound_first b

/-- The state after some octets. -/
def stateAfter (s : State) : Octets → State
  | [] => s
  | b :: bs => stateAfter (step s b.toNat).2 bs

theorem sound_stateAfter {s : State} (hs : s.Sound) (bs : Octets) : (stateAfter s bs).Sound := by
  induction bs generalizing s with
  | nil => exact hs
  | cons b bs ih => exact ih (sound_step hs _)

/-! ### Where the machine stops -/

/-- The first of the octets to come does not continue the character being read. -/
def State.StopsAt : State → Octets → Prop
  | .inside _ low high _ _, b :: _ => ¬ (low ≤ b.toNat ∧ b.toNat ≤ high)
  | _, _ => True

/-- The characters of the octets that follow a state. -/
def decodeFrom (s : State) (bs : Octets) : List Char := (piecesFrom s bs).map Piece.char

theorem decodeFrom_cons (s : State) (b : UInt8) (bs : Octets) :
    decodeFrom s (b :: bs)
      = (step s b.toNat).1.map Piece.char ++ decodeFrom (step s b.toNat).2 bs := by
  simp [decodeFrom, piecesFrom]

/-- A machine that stops reads what follows afresh. -/
theorem decodeFrom_of_stopsAt {s : State} {bs : Octets} (h : s.StopsAt bs) :
    decodeFrom s bs = (flush s).map Piece.char ++ decode bs := by
  cases s with
  | start => simp [flush, decodeFrom, decode, pieces]
  | inside owed low high value taken =>
    cases bs with
    | nil => simp [decodeFrom, piecesFrom, decode, pieces, flush]
    | cons b bs =>
      -- the octet breaks off the character, and is read as it would be at the beginning
      have hb : ¬ ((decide (low ≤ b.toNat) && decide (b.toNat ≤ high)) = true) := by
        simpa [State.StopsAt] using h
      simp [step, hb, flush, decode, pieces, piecesFrom, Piece.char, decodeFrom]

theorem decodeFrom_append {s : State} {a b : Octets} (h : (stateAfter s a).StopsAt b) :
    decodeFrom s (a ++ b) = decodeFrom s a ++ decode b := by
  induction a generalizing s with
  | nil => exact decodeFrom_of_stopsAt h
  | cons x a ih => simp [decodeFrom_cons, ih h]

/-- Octets are read in two parts where the machine stops between them. -/
theorem decode_append {a b : Octets} (h : (stateAfter .start a).StopsAt b) :
    decode (a ++ b) = decode a ++ decode b := decodeFrom_append h

/-! ### Line feeds -/

theorem stopsAt_lineFeed {s : State} (hs : s.Sound) (bs : Octets) : s.StopsAt (10 :: bs) := by
  cases s with
  | start => trivial
  | inside owed low high value taken =>
    have hlow : 0x80 ≤ low := hs.1
    have hten : (10 : UInt8).toNat = 10 := rfl
    simp only [State.StopsAt, hten]
    omega

@[simp] theorem decode_cons_lineFeed (bs : Octets) : decode (10 :: bs) = '\n' :: decode bs := rfl

/-- A line feed separates what is read before it from what is read after it. -/
theorem decode_append_lineFeed (a b : Octets) :
    decode (a ++ 10 :: b) = decode a ++ '\n' :: decode b := by
  rw [decode_append (stopsAt_lineFeed (sound_stateAfter sound_start a) b), decode_cons_lineFeed]

/-- Only the code point of a character is read as it, the one of U+0000 apart. -/
theorem ofNat_ne {n : Nat} {c : Char} (hc : c ≠ '\x00') (h : n ≠ c.toNat) : Char.ofNat n ≠ c := by
  intro e
  by_cases hv : n.isValidChar
  · have hn : (Char.ofNat n).toNat = n := by
      rw [Char.ofNat, dif_pos hv]
      rfl
    rw [e] at hn
    exact h hn.symm
  · -- a number of no character is read as U+0000
    rw [Char.ofNat, dif_neg hv] at e
    exact hc e.symm

theorem ofNat_ne_lineFeed {n : Nat} (h : n ≠ 10) : Char.ofNat n ≠ '\n' := ofNat_ne (by decide) h

theorem char_first_ne {b : Nat} (hb : b ≠ 10) : ∀ p ∈ (first b).1, p.char ≠ '\n' := by
  unfold first
  repeat' split
  all_goals simp [Piece.char, ofNat_ne_lineFeed hb, replacement]

/-- Only the octet of a line feed is read as one. -/
theorem char_step_ne {s : State} (hs : s.Sound) {b : Nat} (hb : b ≠ 10) :
    ∀ p ∈ (step s b).1, p.char ≠ '\n' := by
  cases s with
  | start => exact char_first_ne hb
  | inside owed low high value taken =>
    obtain ⟨hlow, -, hvalue⟩ := hs
    simp only [step]
    split
    · next hin =>
      have hin : low ≤ b ∧ b ≤ high := by simpa using hin
      split
      · -- the last octet of a character of several octets
        have hc : Char.ofNat (value * 64 + (b - 0x80)) ≠ '\n' := ofNat_ne_lineFeed (by omega)
        simpa [Piece.char] using hc
      · simp
    · -- the character is broken off, and the octet read as it would be at the beginning
      intro p hp
      rcases List.mem_cons.mp hp with rfl | hp
      · simp [Piece.char, replacement]
      · exact char_first_ne hb p hp

theorem lineFeed_notMem_decodeFrom {s : State} (hs : s.Sound) {bs : Octets} (h : 10 ∉ bs) :
    '\n' ∉ decodeFrom s bs := by
  induction bs generalizing s with
  | nil => cases s <;> simp [decodeFrom, piecesFrom, flush, Piece.char, replacement]
  | cons b bs ih =>
    rw [List.mem_cons, not_or] at h
    have hb : b.toNat ≠ 10 := fun e => h.1 (UInt8.toNat_inj.mp (by rw [e]; rfl))
    rw [decodeFrom_cons, List.mem_append, not_or, List.mem_map]
    refine ⟨?_, ih (sound_step hs _) h.2⟩
    rintro ⟨p, hp, hc⟩
    exact char_step_ne hs hb p hp hc

/-- Octets without a line feed are read as a text without one. -/
theorem lineFeed_notMem_decode {bs : Octets} (h : 10 ∉ bs) : '\n' ∉ decode bs :=
  lineFeed_notMem_decodeFrom sound_start h

/-- Induction on the lines of some octets. -/
theorem line_induction {P : Octets → Prop} (last : ∀ a, 10 ∉ a → P a)
    (line : ∀ a b, 10 ∉ a → P b → P (a ++ 10 :: b)) (bs : Octets) : P bs := by
  -- what follows the first line feed is shorter
  induction hn : bs.length using Nat.strongRecOn generalizing bs with
  | ind n ih =>
    by_cases h : 10 ∈ bs
    · obtain ⟨a, b, rfl, ha⟩ := List.eq_append_cons_of_mem h
      refine line a b ha (ih b.length ?_ b rfl)
      simp only [List.length_append, List.length_cons] at hn
      omega
    · exact last bs h

/-- The line feeds of a text are those of its octets. -/
theorem count_lineFeed_decode (bs : Octets) : (decode bs).count '\n' = bs.count 10 := by
  induction bs using line_induction with
  | last a ha =>
    rw [List.count_eq_zero_of_not_mem ha, List.count_eq_zero_of_not_mem (lineFeed_notMem_decode ha)]
  | line a b ha ih =>
    rw [decode_append_lineFeed]
    simp [List.count_append, ih, List.count_eq_zero_of_not_mem ha,
      List.count_eq_zero_of_not_mem (lineFeed_notMem_decode ha)]

/-- Whether octets end with a line, so that what follows them begins one. -/
def EndsLine (bs : Octets) : Prop := bs = [] ∨ ∃ a, bs = a ++ [10]

theorem decode_append_of_endsLine {a : Octets} (h : EndsLine a) (b : Octets) :
    decode (a ++ b) = decode a ++ decode b := by
  rcases h with rfl | ⟨a, rfl⟩
  · rfl
  · rw [List.append_assoc, List.singleton_append, decode_append_lineFeed, decode_append_lineFeed]
    simp

/-! ### Boundaries -/

/-- The first piece that follows a state holds the octets read before it, and more if the next one
continues the character. -/
theorem taken_le_width {s : State} {bs : Octets} {p : Piece} {ps : List Piece}
    (h : piecesFrom s bs = p :: ps) :
    s.taken ≤ p.width ∧ (¬ s.StopsAt bs → s.taken < p.width) := by
  induction bs generalizing s p ps with
  | nil =>
    cases s with
    | start => simp [piecesFrom, flush] at h
    | inside owed low high value taken =>
      simp only [piecesFrom, flush, List.cons.injEq] at h
      simp [← h.1, State.taken, State.StopsAt]
  | cons b bs ih =>
    cases s with
    | start => simp [State.taken, State.StopsAt]
    | inside owed low high value taken =>
      simp only [piecesFrom, step] at h
      split at h
      · split at h
        · simp only [List.cons_append, List.cons.injEq] at h
          simp [← h.1, State.taken]
        · -- the character goes on, so the piece holds this octet as well
          have hp := (ih h).1
          simp only [State.taken] at hp ⊢
          omega
      · next hb =>
        simp only [List.cons_append, List.cons.injEq] at h
        refine ⟨by simp [← h.1, State.taken], fun hgo => ?_⟩
        exact absurd (by simpa [State.StopsAt] using hgo) hb

theorem eq_start_of_taken {s : State} (hs : s.Sound) (h : s.taken = 0) : s = .start := by
  cases s with
  | start => rfl
  | inside owed low high value taken =>
    have := hs.2.1
    simp only [State.taken] at h
    omega

/-- Where the first pieces add up to what is read so far, the machine stops. -/
theorem stopsAt_of_totalWidth {s : State} (hs : s.Sound) {a b : Octets} {n : Nat}
    (h : totalWidth ((piecesFrom s (a ++ b)).take n) = s.taken + a.length) :
    (stateAfter s a).StopsAt b := by
  induction a generalizing s n with
  | nil =>
    -- a piece that goes on is wider than what is read of it
    by_contra hgo
    rcases e : piecesFrom s b with - | ⟨p, ps⟩
    · have hw := totalWidth_piecesFrom s b
      rw [e] at hw
      have : s = .start := eq_start_of_taken hs (by simp only [totalWidth] at hw; omega)
      subst this
      exact hgo trivial
    · have hp := (taken_le_width e).2 hgo
      cases n with
      | zero =>
        have : s = .start := eq_start_of_taken hs (by simp [totalWidth] at h; omega)
        subst this
        exact hgo trivial
      | succ n =>
        simp only [List.nil_append, e, List.take_succ_cons, totalWidth, List.length_nil] at h
        omega
  | cons x a ih =>
    have hstep := totalWidth_step s x.toNat
    simp only [List.cons_append, piecesFrom, List.take_append, totalWidth_append,
      List.length_cons] at h
    by_cases hn : n ≤ (step s x.toNat).1.length
    · -- all that is counted ends with this octet, so nothing of it is left over
      have hle : totalWidth ((step s x.toNat).1.take n) ≤ totalWidth (step s x.toNat).1 := by
        conv_rhs => rw [← List.take_append_drop n (step s x.toNat).1, totalWidth_append]
        omega
      rw [Nat.sub_eq_zero_of_le hn, List.take_zero] at h
      simp only [totalWidth] at h
      have ha : a = [] := List.eq_nil_of_length_eq_zero (by omega)
      have hstart := eq_start_of_taken (sound_step hs x.toNat) (by omega)
      simp [stateAfter, ha, hstart, State.StopsAt]
    · rw [List.take_of_length_le (by omega)] at h
      exact ih (sound_step hs _) (n := n - (step s x.toNat).1.length) (by omega)

theorem IsBoundary.le_length {bs : Octets} {k : Nat} (h : IsBoundary bs k) : k ≤ bs.length := by
  obtain ⟨n, hn⟩ := h
  have hw := totalWidth_piecesFrom .start bs
  rw [← List.take_append_drop n (piecesFrom .start bs), totalWidth_append] at hw
  simp only [pieces, State.taken] at hn hw
  omega

theorem decode_ne_nil {bs : Octets} (h : bs ≠ []) : decode bs ≠ [] := by
  intro e
  have hw := totalWidth_piecesFrom .start bs
  rw [show piecesFrom .start bs = [] from List.map_eq_nil_iff.mp e] at hw
  simp only [totalWidth, State.taken] at hw
  exact h (List.eq_nil_of_length_eq_zero (by omega))

/-! ### Cuts -/

/-- An offset at which the machine stops. -/
def IsCut (bs : Octets) (k : Nat) : Prop :=
  k ≤ bs.length ∧ (stateAfter .start (bs.take k)).StopsAt (bs.drop k)

theorem IsBoundary.isCut {bs : Octets} {k : Nat} (h : IsBoundary bs k) : IsCut bs k := by
  refine ⟨h.le_length, ?_⟩
  have hk : (bs.take k).length = k := by simp [h.le_length]
  obtain ⟨n, hn⟩ := h
  apply stopsAt_of_totalWidth sound_start (n := n)
  rw [List.take_append_drop, hk]
  simpa [State.taken, pieces] using hn

theorem StopsAt.of_append {s : State} {a b : Octets} (h : s.StopsAt (a ++ b)) : s.StopsAt a := by
  cases s <;> cases a <;> simp_all [State.StopsAt]

/-- A text that goes beyond a cut is what is read before the cut and what is read after it. -/
theorem IsCut.decode_take {bs : Octets} {k l : Nat} (h : IsCut bs k) (hl : k ≤ l) :
    decode (bs.take l) = decode (bs.take k) ++ decode ((bs.take l).drop k) := by
  have hk : (bs.take l).take k = bs.take k := by rw [List.take_take, Nat.min_eq_left hl]
  have hstop : (stateAfter .start (bs.take k)).StopsAt ((bs.take l).drop k) := by
    have hlen : k ≤ (bs.take l).length := by
      have := h.1
      simp only [List.length_take]
      omega
    apply StopsAt.of_append (b := bs.drop l)
    rw [← List.drop_append_of_le_length hlen, List.take_append_drop]
    exact h.2
  rw [← decode_append hstop, ← hk, List.take_append_drop]

/-! ### Cuts of a line -/

theorem stateAfter_append (s : State) (a b : Octets) :
    stateAfter s (a ++ b) = stateAfter (stateAfter s a) b := by
  induction a generalizing s with
  | nil => rfl
  | cons x a ih => exact ih _

theorem step_lineFeed {s : State} (hs : s.Sound) : (step s 10).2 = .start := by
  cases s with
  | start => rfl
  | inside owed low high value taken =>
    have hlow : ¬ low ≤ 10 := fun h => absurd (Nat.le_trans hs.1 h) (by decide)
    simp [step, hlow, first]

/-- At the beginning of a line nothing is left over from the line before. -/
theorem stateAfter_of_endsLine {a : Octets} (h : EndsLine a) : stateAfter .start a = .start := by
  rcases h with rfl | ⟨a, rfl⟩
  · rfl
  · rw [stateAfter_append]
    exact step_lineFeed (sound_stateAfter sound_start a)

/-- Whether octets are nothing or begin with a line feed, so that what stands before them ends a
line. -/
def BeginsAfterLine (bs : Octets) : Prop := bs = [] ∨ ∃ b, bs = 10 :: b

theorem StopsAt.append_of_beginsAfterLine {s : State} (hs : s.Sound) {a b : Octets}
    (h : s.StopsAt a) (hb : BeginsAfterLine b) : s.StopsAt (a ++ b) := by
  cases a with
  | nil =>
    rcases hb with rfl | ⟨b, rfl⟩
    · exact h
    · exact stopsAt_lineFeed hs b
  | cons x a => cases s <;> exact h

/-- A cut of a line is a cut of the octets that hold the line. -/
theorem IsCut.of_line {before line rest : Octets} {k : Nat} (h : IsCut line k)
    (hbefore : EndsLine before) (hrest : BeginsAfterLine rest) :
    IsCut (before ++ line ++ rest) (before.length + k) := by
  obtain ⟨hk, hstop⟩ := h
  refine ⟨by simp only [List.length_append]; omega, ?_⟩
  -- the line is read from the state of the beginning, and what follows it stops the machine
  rw [List.append_assoc, List.take_length_add_append, List.drop_length_add_append,
    List.take_append_of_le_length hk, List.drop_append_of_le_length hk, stateAfter_append,
    stateAfter_of_endsLine hbefore]
  exact StopsAt.append_of_beginsAfterLine (sound_stateAfter sound_start _) hstop hrest

end CodeOutline.Text.Utf8
