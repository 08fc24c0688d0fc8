/-
CodeOutline/Proofs/Text/Blank.lean

Texts of blanks, and characters that are never blank.

A text has no word exactly if it holds blanks only (`words_eq_nil_iff`).  Letters of the Latin
alphabet and word characters of any script are no blanks, so a name made of them is never blank.
-/
import CodeOutline.Text.Category
import CodeOutline.Text.Lines
import Mathlib.Data.List.TakeWhile

namespace CodeOutline.Text

/-! ### Texts of blanks -/

@[simp] theorem allBlank_ofList (cs : List Char) :
    allBlank (String.ofList cs) = cs.all isBlank := by
  simp [allBlank]

theorem withoutBlanks_eq_nil_iff {cs : List Char} :
    withoutBlanks cs = [] ↔ cs.all isBlank = true := by
  simp [withoutBlanks, List.filter_eq_nil_iff]

theorem words_eq_nil_iff {cs : List Char} : words cs = [] ↔ cs.all isBlank = true := by
  constructor
  · intro h
    rw [← withoutBlanks_eq_nil_iff, ← flatten_words, h]
    rfl
  · intro h
    induction cs with
    | nil => rfl
    | cons c cs ih =>
      simp only [List.all_cons, Bool.and_eq_true] at h
      rw [words_cons_blank h.1, ih h.2]

theorem trimLeft_eq_nil_iff {cs : List Char} : trimLeft cs = [] ↔ cs.all isBlank = true := by
  rw [trimLeft, List.dropWhile_eq_nil_iff, List.all_eq_true]

/-- What is left without the blanks in front has a word, unless nothing is left. -/
theorem trimLeft_eq_nil_of_words {cs : List Char} (h : words (trimLeft cs) = []) :
    trimLeft cs = [] := by
  rw [words_eq_nil_iff] at h
  rw [trimLeft_eq_nil_iff, ← List.takeWhile_append_dropWhile (p := isBlank) (l := cs),
    List.all_append, List.all_takeWhile, Bool.true_and]
  exact h

/-- Words set side by side with spaces are empty only if they have no character. -/
theorem flatten_eq_nil_of_intercalate {ws : List (List Char)} (h : [' '].intercalate ws = []) :
    ws.flatten = [] := by
  match ws, h with
  | [], _ => rfl
  | [w], h => simpa [List.intercalate] using h
  | w :: v :: ws, h => simp [List.intercalate, List.intersperse] at h

theorem all_isBlank_of_singleSpaced {cs : List Char} (h : singleSpaced cs = []) :
    cs.all isBlank = true := by
  rw [← withoutBlanks_eq_nil_iff, ← flatten_words]
  exact flatten_eq_nil_of_intercalate h

/-- A text that is not blank is not blank without its blanks either. -/
theorem all_isBlank_withoutBlanks {cs : List Char} (h : cs.all isBlank = false) :
    (withoutBlanks cs).all isBlank = false := by
  rw [List.all_eq_false] at h ⊢
  obtain ⟨c, hc, hb⟩ := h
  exact ⟨c, List.mem_filter.mpr ⟨hc, by simpa using hb⟩, hb⟩

/-! ### Trimming -/

/-- Trimming at the end cuts off blanks. -/
theorem exists_trimRight_append (cs : List Char) :
    ∃ blanks, (∀ c ∈ blanks, isBlank c = true) ∧ cs = trimRight cs ++ blanks := by
  refine ⟨(cs.reverse.takeWhile isBlank).reverse, ?_, ?_⟩
  · intro c hc
    exact List.all_eq_true.mp List.all_takeWhile c (List.mem_reverse.mp hc)
  · rw [trimRight, ← List.reverse_append, List.takeWhile_append_dropWhile, List.reverse_reverse]

/-- What is left by trimming at the end begins as the text does. -/
theorem mem_head?_of_trimRight {cs : List Char} {c : Char} (h : c ∈ (trimRight cs).head?) :
    c ∈ cs.head? := by
  obtain ⟨blanks, -, happend⟩ := exists_trimRight_append cs
  rw [happend]
  rcases e : trimRight cs with - | ⟨d, ds⟩
  · rw [e] at h
    cases h
  · rw [e] at h
    exact h

/-- Trimming at the end leaves alone what stands before a character that is no blank. -/
theorem trimRight_append_cons {c : Char} (hc : isBlank c = false) (a b : List Char) :
    trimRight (a ++ c :: b) = a ++ c :: trimRight b := by
  have hstop : (c :: a.reverse).dropWhile isBlank = c :: a.reverse :=
    List.dropWhile_cons_of_neg (by simp [hc])
  have hrev : (a ++ c :: b).reverse = b.reverse ++ c :: a.reverse := by simp
  rw [trimRight, hrev, List.dropWhile_append, hstop, trimRight]
  -- the text after the character consists of blanks, or does not
  split
  · next h => simp [List.isEmpty_iff.mp h]
  · simp

/-- What is not indented is trimmed at the end only. -/
theorem trim_of_indentation {line : List Char} (h : indentation line = 0) :
    trim line = trimRight line := by
  have hnil : line.takeWhile isBlank = [] := List.eq_nil_of_length_eq_zero h
  have hdrop : trimLeft line = line := by
    have happend := List.takeWhile_append_dropWhile (p := isBlank) (l := line)
    rw [hnil] at happend
    exact happend
  rw [trim, hdrop]

/-! ### Characters that are no blanks -/

/-- The numbers of the blanks. -/
def blankCodes : List Nat :=
  [9, 10, 11, 12, 13, 28, 29, 30, 31, 32, 0x85, 0xA0, 0x1680, 0x2000, 0x2001, 0x2002, 0x2003,
    0x2004, 0x2005, 0x2006, 0x2007, 0x2008, 0x2009, 0x200A, 0x2028, 0x2029, 0x202F, 0x205F, 0x3000]

theorem toNat_mem_blankCodes {c : Char} (h : isBlank c = true) : c.toNat ∈ blankCodes := by
  simp only [isBlank, Bool.or_eq_true, Bool.and_eq_true, decide_eq_true_eq, beq_iff_eq] at h
  simp only [blankCodes, List.mem_cons, List.not_mem_nil, or_false]
  omega

theorem isBlank_of_isAlpha {c : Char} (h : c.isAlpha = true) : isBlank c = false := by
  rw [Bool.eq_false_iff]
  intro hb
  have hmem := toNat_mem_blankCodes hb
  -- no blank has a number in either range of letters
  have hrange : (65 ≤ c.toNat ∧ c.toNat ≤ 90) ∨ (97 ≤ c.toNat ∧ c.toNat ≤ 122) := by
    rcases (Bool.or_eq_true _ _).mp h with hupper | hlower
    · exact Or.inl (of_decide_eq_true hupper)
    · obtain ⟨hfirst, hlast⟩ := (Bool.and_eq_true _ _).mp hlower
      exact Or.inr ⟨of_decide_eq_true hfirst, of_decide_eq_true hlast⟩
  simp only [blankCodes, List.mem_cons, List.not_mem_nil, or_false] at hmem
  omega

/-- No table of word characters holds a blank. -/
theorem blankCodes_notMem_tables :
    ∀ n ∈ blankCodes, n ≠ 95 ∧ inBorders Table.letters n = false ∧
      inBorders Table.decimals n = false ∧ inBorders Table.numerals n = false := by
  decide +kernel

theorem isBlank_of_isWordChar {c : Char} (h : isWordChar c = true) : isBlank c = false := by
  rw [Bool.eq_false_iff]
  intro hb
  obtain ⟨hunder, hletter, hdecimal, hnumeral⟩ :=
    blankCodes_notMem_tables _ (toNat_mem_blankCodes hb)
  have hne : c ≠ '_' := fun e => hunder (by rw [e]; rfl)
  simp [isWordChar, isLetter, isDecimalDigit, hletter, hdecimal, hnumeral, hne] at h

theorem isWordChar_of_isBlank {c : Char} (h : isBlank c = true) : isWordChar c = false := by
  rw [Bool.eq_false_iff]
  intro hw
  rw [isBlank_of_isWordChar hw] at h
  cases h

/-! ### Longest runs -/

/-- A run of characters of one kind ends where a character of another kind follows. -/
theorem takeWhile_append_of_head {p : Char → Bool} {a b : List Char} (ha : ∀ c ∈ a, p c = true)
    (hb : ∀ c ∈ b.head?, p c = false) :
    (a ++ b).takeWhile p = a ∧ (a ++ b).dropWhile p = b := by
  rw [List.takeWhile_append_of_pos ha, List.dropWhile_append_of_pos ha]
  rcases b with - | ⟨c, cs⟩
  · simp
  · have hc : p c = false := hb c rfl
    simp [hc]

end CodeOutline.Text
