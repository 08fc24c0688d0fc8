/-
CodeOutline/Proofs/Text/Markup.lean

What escaping does to a text.

Escaping puts backslashes in and takes nothing out, so a text grows unless it stays as it is
(`length_le_escape`), and it stays as it is exactly if no tag stands in it and no lone backslash at
its end (`escape_eq_self_iff`).  Characters that are of no account for tags can be taken out in
front (`escape_append`), and an escaped text ends in no blank unless the text itself does
(`trimRight_escape`).
-/
import CodeOutline.Proofs.Text.Words
import CodeOutline.Text.Markup

namespace CodeOutline.Text.Markup

/-! ### A backslash at the end -/

/-- Whether a text ends in a backslash with no other one before it. -/
def endsOpen (cs : List Char) : Bool :=
  match cs.reverse with
  | [] => false
  | [c] => c == '\\'
  | c :: d :: _ => c == '\\' && d != '\\'

/-- What escaping makes of the end of a text. -/
def closeEnd (cs : List Char) : List Char := if endsOpen cs then cs ++ ['\\'] else cs

theorem toList_escape (s : String) : (escape s).toList = closeEnd (escapeFrom 0 0 s.toList) := by
  unfold escape closeEnd endsOpen
  simp only
  rcases (escapeFrom 0 0 s.toList).reverse with - | ⟨c, - | ⟨d, ds⟩⟩
  · simp
  · by_cases hc : c = '\\' <;> simp [hc]
  · by_cases hc : c = '\\' <;> by_cases hd : d = '\\' <;> simp [hc, hd]

/-- Characters that open no tag and are no backslashes. -/
def Unmarked (cs : List Char) : Prop := ∀ c ∈ cs, c ≠ '[' ∧ c ≠ '\\'

theorem endsOpen_append {a : List Char} (ha : Unmarked a) (b : List Char) :
    endsOpen (a ++ b) = endsOpen b := by
  have hlast : ∀ c ∈ a.reverse.head?, c ≠ '\\' := fun c hc =>
    (ha c (List.mem_reverse.mp (List.mem_of_mem_head? hc))).2
  unfold endsOpen
  rw [List.reverse_append]
  -- the last two characters decide, and a backslash is not among those of `a`
  rcases b.reverse with - | ⟨c, - | ⟨d, ds⟩⟩
  · rcases e : a.reverse with - | ⟨x, xs⟩
    · rfl
    · have hx : x ≠ '\\' := hlast x (by rw [e]; rfl)
      cases xs <;> simp [hx]
  · rcases e : a.reverse with - | ⟨x, xs⟩
    · rfl
    · have hx : x ≠ '\\' := hlast x (by rw [e]; rfl)
      simp [hx]
  · rfl

theorem closeEnd_append {a : List Char} (ha : Unmarked a) (b : List Char) :
    closeEnd (a ++ b) = a ++ closeEnd b := by
  rw [closeEnd, closeEnd, endsOpen_append ha]
  split
  · exact List.append_assoc a b _
  · rfl

theorem length_le_closeEnd (cs : List Char) : cs.length ≤ (closeEnd cs).length := by
  unfold closeEnd
  split <;> simp

/-! ### Characters in front -/

theorem escapeFrom_append {a : List Char} (ha : Unmarked a) (b : List Char) :
    escapeFrom 0 0 (a ++ b) = a ++ escapeFrom 0 0 b := by
  induction a with
  | nil => rfl
  | cons c a ih =>
    obtain ⟨hc, ha⟩ := List.forall_mem_cons.mp ha
    simp [escapeFrom, tagLength?_eq_none hc.1, hc.2, ih ha]

/-- Characters in front that are of no account for tags stay as they are. -/
theorem escape_append {a : String} (ha : Unmarked a.toList) (b : String) :
    escape (a ++ b) = a ++ escape b := by
  rw [← String.toList_inj, String.toList_append, toList_escape, toList_escape, String.toList_append,
    escapeFrom_append ha, closeEnd_append ha]

theorem escape_of_unmarked {s : String} (h : Unmarked s.toList) : escape s = s := by
  have hescape := escape_append h ""
  rw [String.append_empty] at hescape
  exact hescape.trans String.append_empty

/-! ### Texts that stay as they are -/

theorem length_le_escapeFrom (cs : List Char) {held inside : Nat} (h : held = 0 ∨ inside = 0) :
    held + cs.length ≤ (escapeFrom held inside cs).length := by
  induction cs generalizing held inside with
  | nil => simp [escapeFrom]
  | cons c cs ih =>
    rw [escapeFrom]
    split
    · -- inside a tag no backslashes are held
      have hcs := ih (.inl rfl : 0 = 0 ∨ inside - 1 = 0)
      simp only [List.length_cons]
      omega
    · split
      · next n _ =>
        have hcs := ih (.inl rfl : 0 = 0 ∨ n - 1 = 0)
        simp only [List.length_append, List.length_replicate, List.length_cons]
        omega
      · split
        · have hcs := ih (.inr rfl : held + 1 = 0 ∨ 0 = 0)
          simp only [List.length_cons]
          omega
        · have hcs := ih (.inl rfl : 0 = 0 ∨ 0 = 0)
          simp only [List.length_append, List.length_replicate, List.length_cons]
          omega

/-- A text with a tag in it grows. -/
theorem tagLength?_of_length {cs : List Char} {held : Nat}
    (h : (escapeFrom held 0 cs).length = held + cs.length) :
    ∀ r, r <:+ cs → tagLength? r = none := by
  induction cs generalizing held with
  | nil =>
    intro r hr
    rw [List.suffix_nil.mp hr]
    rfl
  | cons c cs ih =>
    rw [escapeFrom, if_neg (Nat.lt_irrefl 0)] at h
    rcases e : tagLength? (c :: cs) with - | n
    · simp only [e] at h
      have hrest : ∀ r, r <:+ cs → tagLength? r = none := by
        split at h
        · exact ih (h.trans (by simp only [List.length_cons]; omega))
        · simp only [List.length_append, List.length_replicate, List.length_cons] at h
          exact ih (show (escapeFrom 0 0 cs).length = 0 + cs.length by omega)
      intro r hr
      rcases List.suffix_cons_iff.mp hr with rfl | hr
      · exact e
      · exact hrest r hr
    · -- a tag is written with one backslash more
      have hcs := length_le_escapeFrom cs (.inl rfl : 0 = 0 ∨ n - 1 = 0)
      simp only [e, List.length_append, List.length_replicate, List.length_cons] at h
      omega

/-- A text without tags is written with the backslashes before it. -/
theorem escapeFrom_of_tagless {cs : List Char} (h : ∀ r, r <:+ cs → tagLength? r = none)
    (held : Nat) : escapeFrom held 0 cs = List.replicate held '\\' ++ cs := by
  induction cs generalizing held with
  | nil => exact (List.append_nil _).symm
  | cons c cs ih =>
    have hrest := ih fun r hr => h r (hr.trans (List.suffix_cons c cs))
    rw [escapeFrom, if_neg (Nat.lt_irrefl 0), h _ (List.suffix_refl _)]
    simp only
    split
    · next hc =>
      rw [hrest, hc, List.replicate_succ', List.append_assoc]
      rfl
    · rw [hrest]
      rfl

/-- A text that shows itself: no tag stands in it and no lone backslash at its end. -/
def ShowsItself (s : String) : Prop :=
  (∀ r, r <:+ s.toList → tagLength? r = none) ∧ endsOpen s.toList = false

theorem length_le_escape (s : String) : s.length ≤ (escape s).length := by
  have hclose := length_le_closeEnd (escapeFrom 0 0 s.toList)
  have hescape := length_le_escapeFrom s.toList (.inl rfl : 0 = 0 ∨ 0 = 0)
  rw [← toList_escape, String.length_toList] at hclose
  rw [String.length_toList] at hescape
  omega

theorem escape_of_showsItself {s : String} (h : ShowsItself s) : escape s = s := by
  rw [← String.toList_inj, toList_escape, escapeFrom_of_tagless h.1, List.replicate_zero,
    List.nil_append, closeEnd, h.2, if_neg Bool.false_ne_true]

theorem showsItself_of_length {s : String} (h : (escape s).length = s.length) : ShowsItself s := by
  have hclose := length_le_closeEnd (escapeFrom 0 0 s.toList)
  have hescape := length_le_escapeFrom s.toList (.inl rfl : 0 = 0 ∨ 0 = 0)
  have hlength : (closeEnd (escapeFrom 0 0 s.toList)).length = s.toList.length := by
    rw [← toList_escape, String.length_toList, String.length_toList, h]
  have htagless := tagLength?_of_length
    (show (escapeFrom 0 0 s.toList).length = 0 + s.toList.length by omega)
  refine ⟨htagless, ?_⟩
  -- a backslash that is doubled makes the text longer
  by_contra hopen
  rw [escapeFrom_of_tagless htagless, List.replicate_zero, List.nil_append, closeEnd,
    if_pos (Bool.not_eq_false _ ▸ hopen), List.length_append] at hlength
  simp at hlength

/-- Escaping leaves exactly the texts that show themselves as they are. -/
theorem escape_eq_self_iff {s : String} : escape s = s ↔ ShowsItself s :=
  ⟨fun h => showsItself_of_length (congrArg String.length h), escape_of_showsItself⟩

/-! ### Blanks at the end -/

/-- The last character is written last. -/
theorem exists_escapeFrom_concat (cs : List Char) (c : Char) (held inside : Nat) :
    ∃ out, escapeFrom held inside (cs ++ [c]) = out ++ [c] := by
  induction cs generalizing held inside with
  | nil =>
    have htag : tagLength? [c] = none := by
      unfold tagLength?
      split
      · next e => cases (List.cons.inj e).2
      · rfl
    rw [List.nil_append, escapeFrom, htag]
    split
    · exact ⟨[], rfl⟩
    · simp only
      split
      · next hc => exact ⟨List.replicate held '\\', by rw [hc, escapeFrom, List.replicate_succ']⟩
      · exact ⟨List.replicate held '\\', rfl⟩
  | cons d cs ih =>
    rw [List.cons_append, escapeFrom]
    split
    · obtain ⟨out, hout⟩ := ih 0 (inside - 1)
      exact ⟨d :: out, by rw [hout, List.cons_append]⟩
    · split
      · next n _ =>
        obtain ⟨out, hout⟩ := ih 0 (n - 1)
        exact ⟨List.replicate (2 * held + 1) '\\' ++ d :: out, by rw [hout]; simp⟩
      · split
        · exact ih (held + 1) 0
        · obtain ⟨out, hout⟩ := ih 0 0
          exact ⟨List.replicate held '\\' ++ d :: out, by rw [hout]; simp⟩

/-- An escaped text ends in no blank if the text does not. -/
theorem trimRight_escape {s : String} (h : trimRight s.toList = s.toList) :
    trimRight (escape s).toList = (escape s).toList := by
  rcases List.eq_nil_or_concat s.toList with e | ⟨cs, c, e⟩
  · rw [toList_escape, e]
    rfl
  · rw [List.concat_eq_append] at e
    rw [e] at h
    have hc : isBlank c = false := isBlank_of_trimRight_concat h
    obtain ⟨out, hout⟩ := exists_escapeFrom_concat cs c 0 0
    have hlast : trimRight [c] = [c] := trimRight_of_not_isBlank (by simpa using hc)
    rw [toList_escape, e, hout, closeEnd]
    split
    · exact trimRight_append_of_ne_nil _ (by decide)
    · rw [trimRight_append_of_ne_nil _ (by rw [hlast]; simp), hlast]

end CodeOutline.Text.Markup
