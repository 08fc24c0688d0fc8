/-
CodeOutline/Proofs/Text/Lowercase.lean

What the lowercase form of a text begins with, holds and has as its own form.

All capital letters lie above the dot, and so do their lowercase forms.  So no other character
becomes a dot, and a text that does not begin with one has a lowercase form that does not either
(`head?_lower_ne_dot`).  The same goes for every character below the letters, which the form of a
text holds exactly if the text does (`mem_lower_iff`).

No lowercase form is a capital letter itself: run by run, the forms lie beside all capitals or
between them (`allClear`).  So taking the form once more changes nothing (`lower_lower`).  A form
is as long as its text, but for the dotted capital I, which becomes two characters
(`length_lower`).
-/
import CodeOutline.Proofs.Text.Boundary
import CodeOutline.Text.Lowercase

namespace CodeOutline.Text

open Table (CaseRun)

/-! ### Characters below the letters -/

/-- The lowercase forms of a run of capital letters lie above a code point. -/
def CaseRun.Above (m : Nat) (r : CaseRun) : Prop :=
  if r.up then m < r.first + r.shift else m + r.shift < r.first

instance (m : Nat) : DecidablePred (CaseRun.Above m) := fun r =>
  inferInstanceAs (Decidable (if r.up then m < r.first + r.shift else m + r.shift < r.first))

/-- A code point below the lowercase forms of all capital letters is the form of itself alone. -/
theorem lowerIn_ne {m n : Nat} {rs : List CaseRun} (h : ∀ r ∈ rs, CaseRun.Above m r)
    (hn : n ≠ m) : lowerIn rs n ≠ m := by
  induction rs with
  | nil => exact hn
  | cons r rs ih =>
    obtain ⟨hr, hrest⟩ := List.forall_mem_cons.mp h
    rw [lowerIn]
    split
    · exact hn
    · next hfirst =>
      split
      · -- a capital letter of this run
        unfold CaseRun.Above at hr
        split at hr
        · next hup =>
          rw [if_pos hup]
          omega
        · next hdown =>
          rw [if_neg hdown]
          omega
      · exact ih hrest

theorem lowerIn_of_lt_first {n : Nat} (h : n < 65) : lowerIn Table.caseRuns n = n := by
  rw [Table.caseRuns, lowerIn, if_pos h]

theorem lowerChar_of_lt {c : Char} (h : c.toNat < 65) : lowerChar c = [c] := by
  rw [lowerChar, if_neg (by omega), lowerIn_of_lt_first h, Char.ofNat_toNat]

theorem lowerChar_ne_nil (c : Char) : lowerChar c ≠ [] := by
  unfold lowerChar
  split <;> simp

theorem notMem_lowerChar {c d : Char} (hd : d ≠ '\x00') (hletter : d.toNat < 65) (h : c ≠ d) :
    d ∉ lowerChar c := by
  have hruns : ∀ r ∈ Table.caseRuns, CaseRun.Above d.toNat r := by
    have hall : ∀ r ∈ Table.caseRuns, CaseRun.Above 64 r := by decide +kernel
    intro r hr
    have habove := hall r hr
    unfold CaseRun.Above at habove ⊢
    split at habove
    · next hup =>
      rw [if_pos hup]
      omega
    · next hdown =>
      rw [if_neg hdown]
      omega
  have hc : c.toNat ≠ d.toNat := fun e => h (Char.toNat_inj.mp e)
  unfold lowerChar
  split
  · -- the dotted capital I
    rw [List.mem_pair]
    rintro (rfl | rfl)
    · exact absurd hletter (by decide)
    · exact absurd hletter (by decide)
  · rw [List.mem_singleton]
    exact (Utf8.ofNat_ne hd (lowerIn_ne hruns hc)).symm

theorem mem_lowerAfter_iff {d : Char} (hd : d ≠ '\x00') (hletter : d.toNat < 65)
    {before cs : List Char} : d ∈ lowerAfter before cs ↔ d ∈ cs := by
  induction cs generalizing before with
  | nil => rfl
  | cons c cs ih =>
    rw [lowerAfter, List.mem_append, List.mem_cons, ih]
    refine or_congr_left ?_
    split
    · -- neither form of the capital sigma lies below the letters
      next hc =>
      have hfirst : d ≠ c := by rintro rfl; rw [hc] at hletter; exact absurd hletter (by decide)
      have hforms : d ≠ 'ς' ∧ d ≠ 'σ' := by
        constructor <;> (rintro rfl; exact absurd hletter (by decide))
      split <;> simp [hfirst, hforms]
    · constructor
      · intro hmem
        by_contra hne
        exact notMem_lowerChar hd hletter (Ne.symm hne) hmem
      · rintro rfl
        rw [lowerChar_of_lt hletter]
        exact List.mem_singleton_self d

/-- Below the letters a text and its lowercase form hold the same characters. -/
theorem mem_lower_iff {d : Char} (hd : d ≠ '\x00') (hletter : d.toNat < 65) {cs : List Char} :
    d ∈ lower cs ↔ d ∈ cs :=
  mem_lowerAfter_iff hd hletter

/-- A text that does not begin with a dot has no lowercase form that does. -/
theorem head?_lower_ne_dot {cs : List Char} (h : cs.head? ≠ some '.') :
    (lower cs).head? ≠ some '.' := by
  cases cs with
  | nil => simp
  | cons c cs =>
    have hc : c ≠ '.' := by simpa using h
    rw [lower, lowerAfter]
    split
    · -- a capital sigma, in one of its two forms
      split <;> simp
    · intro hhead
      refine notMem_lowerChar (by decide) (by decide) hc (List.mem_of_mem_head? ?_)
      rwa [List.head?_append_of_ne_nil _ (lowerChar_ne_nil c)] at hhead

/-! ### The form of a form -/

/-- The lowercase form of a capital letter of a run. -/
def Table.CaseRun.form (r : CaseRun) (n : Nat) : Nat := if r.up then n + r.shift else n - r.shift

/-- A code point is a capital letter of a run. -/
def Table.CaseRun.Holds (r : CaseRun) (n : Nat) : Prop :=
  r.first ≤ n ∧ n ≤ r.last ∧ (n - r.first) % r.step = 0

/-- The forms of a run lie below the capitals of another one, above them, or between them where
only every other code point is a capital. -/
def Table.CaseRun.clear (r r' : CaseRun) : Bool :=
  (r.form r.last).blt r'.first || r'.last.blt (r.form r.first) ||
    (r.up && (r.step == 2 || r.first == r.last) && r'.step == 2 &&
      (r.form r.first + r'.first) % 2 == 1)

theorem allClear : (Table.caseRuns.all fun r => Table.caseRuns.all r.clear) = true := by
  decide +kernel

/-- No form is the dotted capital I or the capital sigma, which the table does not decide. -/
theorem forms_besideExceptions :
    (Table.caseRuns.all fun r =>
      [0x130, 'Σ'.toNat].all fun n => (r.form r.last).blt n || n.blt (r.form r.first)) = true := by
  decide

theorem Table.CaseRun.form_le_form (r : CaseRun) {m n : Nat} (h : m ≤ n) : r.form m ≤ r.form n := by
  unfold form
  split <;> omega

theorem Table.CaseRun.not_holds_form {r r' : CaseRun} (hclear : r.clear r' = true) {n : Nat}
    (h : r.Holds n) : ¬ r'.Holds (r.form n) := by
  obtain ⟨hfirst, hlast, hstep⟩ := h
  rintro ⟨hfirst', hlast', hstep'⟩
  have hlow := r.form_le_form hfirst
  have hhigh := r.form_le_form hlast
  simp only [clear, Bool.or_eq_true, Bool.and_eq_true, beq_iff_eq, Nat.blt_eq] at hclear
  rcases hclear with (hbelow | habove) | ⟨⟨⟨hup, heven⟩, heven'⟩, hodd⟩
  · omega
  · omega
  · -- the letters of the first run are as far apart as those of the other one
    rw [heven'] at hstep'
    have hn : (n - r.first) % 2 = 0 := by
      rcases heven with heven | hone
      · rwa [heven] at hstep
      · omega
    simp only [form, if_pos hup] at hfirst' hstep' hodd
    omega

theorem lowerIn_of_not_holds {rs : List CaseRun} {n : Nat} (h : ∀ r ∈ rs, ¬ r.Holds n) :
    lowerIn rs n = n := by
  induction rs with
  | nil => rfl
  | cons r rs ih =>
    obtain ⟨hr, hrest⟩ := List.forall_mem_cons.mp h
    rw [lowerIn]
    split
    · rfl
    · next hfirst =>
      split
      · next hin =>
        simp only [Bool.and_eq_true, decide_eq_true_eq, beq_iff_eq] at hin
        exact absurd ⟨Nat.le_of_not_lt hfirst, hin⟩ hr
      · exact ih hrest

/-- A code point is the form of itself, or a capital letter of some run. -/
theorem lowerIn_eq_or (rs : List CaseRun) (n : Nat) :
    lowerIn rs n = n ∨ ∃ r ∈ rs, r.Holds n ∧ lowerIn rs n = r.form n := by
  induction rs with
  | nil => exact .inl rfl
  | cons r rs ih =>
    rw [lowerIn]
    split
    · exact .inl rfl
    · next hfirst =>
      split
      · next hin =>
        simp only [Bool.and_eq_true, decide_eq_true_eq, beq_iff_eq] at hin
        exact .inr ⟨r, List.mem_cons_self, ⟨Nat.le_of_not_lt hfirst, hin⟩, rfl⟩
      · refine ih.imp_right ?_
        rintro ⟨r', hr', h⟩
        exact ⟨r', List.mem_cons_of_mem _ hr', h⟩

theorem lowerIn_lowerIn (n : Nat) :
    lowerIn Table.caseRuns (lowerIn Table.caseRuns n) = lowerIn Table.caseRuns n := by
  rcases lowerIn_eq_or Table.caseRuns n with hself | ⟨r, hr, hn, hform⟩
  · rw [hself, hself]
  · rw [hform]
    refine lowerIn_of_not_holds fun r' hr' => ?_
    have hclear := List.all_eq_true.mp (List.all_eq_true.mp allClear r hr) r' hr'
    exact CaseRun.not_holds_form hclear hn

/-- A character that is its own lowercase form, wherever it stands. -/
def IsLower (c : Char) : Prop := c ≠ 'Σ' ∧ lowerChar c = [c]

theorem isLower_ofNat {n : Nat} (hself : lowerIn Table.caseRuns n = n) (hsigma : n ≠ 'Σ'.toNat)
    (hdotted : n ≠ 0x130) : IsLower (Char.ofNat n) := by
  by_cases hv : n.isValidChar
  · have hn : (Char.ofNat n).toNat = n := by
      rw [Char.ofNat, dif_pos hv]
      rfl
    refine ⟨fun e => hsigma (by rw [← hn, e]), ?_⟩
    rw [lowerChar, hn, if_neg hdotted, hself]
  · -- a number of no character is read as U+0000
    rw [Char.ofNat, dif_neg hv]
    exact ⟨by decide, lowerChar_of_lt (by decide)⟩

theorem isLower_of_mem_lowerChar {c d : Char} (hc : c ≠ 'Σ') (h : d ∈ lowerChar c) :
    IsLower d := by
  rw [lowerChar] at h
  split at h
  · rw [List.mem_pair] at h
    rcases h with rfl | rfl
    · exact ⟨by decide, by decide⟩
    · exact ⟨by decide, by decide⟩
  · next hdotted =>
    rw [List.mem_singleton.mp h]
    have hbeside : ∀ n ∈ [0x130, 'Σ'.toNat], lowerIn Table.caseRuns c.toNat ≠ n := by
      intro n hn
      rcases lowerIn_eq_or Table.caseRuns c.toNat with hself | ⟨r, hr, hin, hform⟩
      · rw [hself]
        rcases List.mem_pair.mp hn with rfl | rfl
        · exact hdotted
        · exact fun e => hc (Char.toNat_inj.mp e)
      · have hgap := List.all_eq_true.mp (List.all_eq_true.mp forms_besideExceptions r hr) n hn
        have hlow := r.form_le_form hin.1
        have hhigh := r.form_le_form hin.2.1
        simp only [Bool.or_eq_true, Nat.blt_eq] at hgap
        rw [hform]
        omega
    exact isLower_ofNat (lowerIn_lowerIn _) (hbeside _ (by simp)) (hbeside _ (by simp))

theorem isLower_of_mem_lowerAfter {before cs : List Char} {c : Char}
    (h : c ∈ lowerAfter before cs) : IsLower c := by
  induction cs generalizing before with
  | nil => cases h
  | cons d cs ih =>
    rw [lowerAfter, List.mem_append] at h
    rcases h with h | h
    · split at h
      · -- a capital sigma, in one of its two forms
        have hforms : IsLower 'ς' ∧ IsLower 'σ' := by
          refine ⟨⟨by decide, ?_⟩, ⟨by decide, ?_⟩⟩ <;> decide
        split at h
        · rw [List.mem_singleton.mp h]
          exact hforms.1
        · rw [List.mem_singleton.mp h]
          exact hforms.2
      · next hd => exact isLower_of_mem_lowerChar hd h
    · exact ih h

theorem lowerAfter_of_isLower {before cs : List Char} (h : ∀ c ∈ cs, IsLower c) :
    lowerAfter before cs = cs := by
  induction cs generalizing before with
  | nil => rfl
  | cons c cs ih =>
    obtain ⟨⟨hsigma, hself⟩, hrest⟩ := List.forall_mem_cons.mp h
    rw [lowerAfter, if_neg hsigma, hself, ih hrest, List.singleton_append]

/-- Taking the lowercase form once more changes nothing. -/
theorem lower_lower (cs : List Char) : lower (lower cs) = lower cs :=
  lowerAfter_of_isLower fun _ hc => isLower_of_mem_lowerAfter hc

/-! ### Length -/

theorem length_lowerAfter (before cs : List Char) :
    (lowerAfter before cs).length = cs.length + cs.countP (fun c => c.toNat == 0x130) := by
  induction cs generalizing before with
  | nil => rfl
  | cons c cs ih =>
    have hfirst : (if c = 'Σ' then [if startsCased before && !startsCased cs then 'ς' else 'σ']
        else lowerChar c).length = if c.toNat = 0x130 then 2 else 1 := by
      split
      · next hc =>
        have hdotted : c.toNat ≠ 0x130 := by rw [hc]; decide
        rw [if_neg hdotted, List.length_singleton]
      · rw [lowerChar]
        split <;> rfl
    rw [lowerAfter, List.length_append, hfirst, ih, List.length_cons, List.countP_cons]
    split
    · next hc =>
      simp only [hc, beq_self_eq_true, if_true]
      omega
    · next hc =>
      simp only [beq_iff_eq, hc, if_false]
      omega

/-- The lowercase form is longer by one character for each dotted capital I. -/
theorem length_lower (cs : List Char) :
    (lower cs).length = cs.length + cs.countP (fun c => c.toNat == 0x130) :=
  length_lowerAfter [] cs

/-- A part of a text that leaves something out has a shorter lowercase form. -/
theorem length_lower_lt_of_sublist {a b : List Char} (h : a.Sublist b) (hlt : a.length < b.length) :
    (lower a).length < (lower b).length := by
  rw [length_lower, length_lower]
  have hcount := h.countP_le (p := fun c => c.toNat == 0x130)
  omega

end CodeOutline.Text
