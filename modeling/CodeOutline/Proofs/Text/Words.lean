/-
CodeOutline/Proofs/Text/Words.lean

Words of texts that are cut, trimmed and joined.

Everything here follows from one equation: a text that is cut at a blank has the words of its first
part and then those of its second (`words_append_cons`).  So blanks at either end do not matter
(`words_trim`), and lines set one below the other have the words of the lines in order
(`words_joinTrimmed`).  A text that is trimmed already begins and ends with characters that are no
blanks, which is what other line formats ask of it.
-/
import CodeOutline.Proofs.Text.Blank

namespace CodeOutline.Text

/-! ### Words of what is put together -/

theorem words_singleton {c : Char} (hc : isBlank c = false) : words [c] = [[c]] := by
  simp [words, hc]

/-- What follows the first word stays behind it when a character is put in front. -/
theorem joinFirst_append {ws : List (List Char)} (h : ws ≠ []) (c : Char)
    (vs : List (List Char)) : joinFirst c (ws ++ vs) = joinFirst c ws ++ vs := by
  cases ws with
  | nil => exact absurd rfl h
  | cons w ws => rfl

/-- A text that is cut at a blank has the words of the two parts. -/
theorem words_append_cons {b : Char} (hb : isBlank b = true) (cs ds : List Char) :
    words (cs ++ b :: ds) = words cs ++ words ds := by
  induction cs with
  | nil => exact words_cons_blank hb ds
  | cons c cs ih =>
    by_cases hc : isBlank c = true
    · rw [List.cons_append, words_cons_blank hc, words_cons_blank hc, ih]
    · have hc' : isBlank c = false := by simpa using hc
      cases cs with
      | nil =>
        -- the blank ends the word
        show words (c :: b :: ds) = words [c] ++ words ds
        rw [words_singleton hc', words, if_neg hc, if_pos hb, words_cons_blank hb]
        rfl
      | cons d cs =>
        show words (c :: d :: (cs ++ b :: ds)) = words (c :: d :: cs) ++ words ds
        have ih' : words (d :: (cs ++ b :: ds)) = words (d :: cs) ++ words ds := ih
        rw [words, words, if_neg hc, if_neg hc, ih']
        by_cases hd : isBlank d = true
        · rw [if_pos hd, if_pos hd, List.cons_append]
        · have hne : words (d :: cs) ≠ [] := by
            intro e
            have hall := words_eq_nil_iff.mp e
            rw [List.all_cons, Bool.and_eq_true] at hall
            exact hd hall.1
          rw [if_neg hd, if_neg hd, joinFirst_append hne]

/-- Blanks at the end do not matter. -/
theorem words_append_of_blank (cs : List Char) {bs : List Char}
    (h : ∀ b ∈ bs, isBlank b = true) : words (cs ++ bs) = words cs := by
  cases bs with
  | nil => rw [List.append_nil]
  | cons b bs =>
    have hbs : words bs = [] :=
      words_eq_nil_iff.mpr (List.all_eq_true.mpr fun c hc => h c (List.mem_cons_of_mem _ hc))
    rw [words_append_cons (h b List.mem_cons_self), hbs, List.append_nil]

theorem words_trimLeft (cs : List Char) : words (trimLeft cs) = words cs := by
  induction cs with
  | nil => rfl
  | cons c cs ih =>
    by_cases hc : isBlank c = true
    · rw [words_cons_blank hc, ← ih, trimLeft, List.dropWhile_cons_of_pos hc]
      rfl
    · rw [trimLeft, List.dropWhile_cons_of_neg hc]

theorem words_trimRight (cs : List Char) : words (trimRight cs) = words cs := by
  obtain ⟨blanks, hblank, happend⟩ := exists_trimRight_append cs
  calc words (trimRight cs) = words (trimRight cs ++ blanks) :=
        (words_append_of_blank _ hblank).symm
    _ = words cs := by rw [← happend]

theorem words_trim (cs : List Char) : words (trim cs) = words cs := by
  rw [trim, words_trimRight, words_trimLeft]

/-- Lines set one below the other have the words of the lines. -/
theorem words_joinTrimmed (ls : List (List Char)) : words (joinTrimmed ls) = ls.flatMap words := by
  rw [joinTrimmed, words_trim]
  induction ls with
  | nil => rfl
  | cons l ls ih =>
    cases ls with
    | nil => simp
    | cons k ks =>
      rw [List.intercalate_cons_cons, List.append_assoc, List.singleton_append,
        words_append_cons (by decide), ih]
      rfl

/-- A text that begins with a word and goes on with a blank, if it goes on. -/
theorem words_append_of_head {w rest : List Char} (hne : w ≠ [])
    (hw : ∀ c ∈ w, isBlank c = false) (hrest : ∀ c ∈ rest.head?, isBlank c = true) :
    words (w ++ rest) = w :: words rest := by
  have hword : words w = [w] := by
    induction w with
    | nil => exact absurd rfl hne
    | cons c w ih =>
      have hc : isBlank c = false := hw c List.mem_cons_self
      cases w with
      | nil => exact words_singleton hc
      | cons d w =>
        have hd : isBlank d = false := hw d (by simp)
        rw [words, hc, hd, ih (by simp) fun e he => hw e (List.mem_cons_of_mem _ he)]
        rfl
  cases rest with
  | nil => rw [List.append_nil, hword, words_nil]
  | cons b rest =>
    have hb : isBlank b = true := hrest b rfl
    rw [words_append_cons hb, hword, words_cons_blank hb]
    rfl

/-- Words with single spaces between them are read back. -/
theorem words_intercalate {ws : List (List Char)}
    (h : ∀ w ∈ ws, w ≠ [] ∧ ∀ c ∈ w, isBlank c = false) : words ([' '].intercalate ws) = ws := by
  induction ws with
  | nil => rfl
  | cons w ws ih =>
    obtain ⟨hne, hw⟩ := h w List.mem_cons_self
    have hws : ∀ v ∈ ws, v ≠ [] ∧ ∀ c ∈ v, isBlank c = false :=
      fun v hv => h v (List.mem_cons_of_mem _ hv)
    cases ws with
    | nil =>
      have hone : words (w ++ []) = w :: words [] := words_append_of_head hne hw (by simp)
      simpa using hone
    | cons v ws =>
      have hblank : isBlank ' ' = true := by decide
      rw [List.intercalate_cons_cons, List.append_assoc, List.singleton_append,
        words_append_of_head hne hw (by simpa using hblank), words_cons_blank hblank, ih hws]

/-! ### Trimmed texts -/

theorem trimLeft_of_head {cs : List Char} (h : ∀ c ∈ cs.head?, isBlank c = false) :
    trimLeft cs = cs := by
  cases cs with
  | nil => rfl
  | cons c cs =>
    have hc : isBlank c = false := h c rfl
    rw [trimLeft, List.dropWhile_cons_of_neg (by simp [hc])]

/-- Nothing that is left by trimming begins with a blank. -/
theorem isBlank_of_head_trimLeft {cs : List Char} :
    ∀ c ∈ (trimLeft cs).head?, isBlank c = false := by
  intro c hc
  have hhead := List.head?_dropWhile_not isBlank cs
  have hsome : (cs.dropWhile isBlank).head? = some c := hc
  rw [hsome] at hhead
  simpa using hhead

@[simp] theorem trimLeft_trimLeft (cs : List Char) : trimLeft (trimLeft cs) = trimLeft cs :=
  trimLeft_of_head isBlank_of_head_trimLeft

@[simp] theorem trimRight_trimRight (cs : List Char) :
    trimRight (trimRight cs) = trimRight cs := by
  have h := trimLeft_trimLeft cs.reverse
  simpa [trimRight, trimLeft] using h

@[simp] theorem trimRight_trim (cs : List Char) : trimRight (trim cs) = trim cs := by
  rw [trim, trimRight_trimRight]

/-- The text in front of blanks is a longest one if it is trimmed at its end. -/
theorem trimRight_append_of_blank (cs : List Char) {bs : List Char}
    (h : ∀ b ∈ bs, isBlank b = true) : trimRight (cs ++ bs) = trimRight cs := by
  have hrev : ∀ b ∈ bs.reverse, isBlank b = true := fun b hb => h b (List.mem_reverse.mp hb)
  rw [trimRight, List.reverse_append, List.dropWhile_append_of_pos hrev, trimRight]

/-- What stands in front of a text that is left by trimming stays as well. -/
theorem trimRight_append_of_ne_nil (cs : List Char) {ds : List Char} (h : trimRight ds ≠ []) :
    trimRight (cs ++ ds) = cs ++ trimRight ds := by
  have hne : (ds.reverse.dropWhile isBlank).isEmpty = false := by
    rw [List.isEmpty_eq_false_iff]
    intro e
    exact h (by rw [trimRight, e, List.reverse_nil])
  rw [trimRight, List.reverse_append, List.dropWhile_append, hne, if_neg (by decide),
    List.reverse_append, List.reverse_reverse, trimRight]

theorem trimRight_of_not_isBlank {cs : List Char} (h : ∀ c ∈ cs, isBlank c = false) :
    trimRight cs = cs := by
  obtain ⟨blanks, hblank, happend⟩ := exists_trimRight_append cs
  cases blanks with
  | nil => rw [List.append_nil] at happend; exact happend.symm
  | cons b blanks =>
    -- a blank that is cut off is a character of the text
    have hmem : b ∈ cs := by
      rw [happend]
      exact List.mem_append_right _ List.mem_cons_self
    have hb := h b hmem
    rw [hblank b List.mem_cons_self] at hb
    cases hb

/-- Nothing that is left by trimming ends in a blank. -/
theorem isBlank_of_trimRight_concat {cs : List Char} {c : Char}
    (h : trimRight (cs ++ [c]) = cs ++ [c]) : isBlank c = false := by
  by_contra hc
  rw [trimRight_append_of_blank cs (by simpa using hc)] at h
  obtain ⟨back, -, happend⟩ := exists_trimRight_append cs
  have hlength := congrArg List.length happend
  simp [h] at hlength

/-- Blanks in front of a text are not kept by trimming it. -/
theorem trimLeft_append_of_blank {bs : List Char} (h : ∀ b ∈ bs, isBlank b = true)
    (cs : List Char) : trimLeft (bs ++ cs) = trimLeft cs :=
  List.dropWhile_append_of_pos h

theorem trim_append_of_blank {bs : List Char} (h : ∀ b ∈ bs, isBlank b = true)
    (cs : List Char) : trim (bs ++ cs) = trim cs := by
  rw [trim, trimLeft_append_of_blank h, trim]

/-- Trimming in front cuts off blanks. -/
theorem exists_append_trimLeft (cs : List Char) :
    ∃ blanks, (∀ c ∈ blanks, isBlank c = true) ∧ cs = blanks ++ trimLeft cs :=
  ⟨cs.takeWhile isBlank, fun c hc => List.all_eq_true.mp List.all_takeWhile c hc,
    List.takeWhile_append_dropWhile.symm⟩

/-- Both ends of a text can be trimmed in either order. -/
theorem trimLeft_trimRight (cs : List Char) : trimLeft (trimRight cs) = trim cs := by
  obtain ⟨front, hfront, hcs⟩ := exists_append_trimLeft cs
  rcases e : trimLeft cs with - | ⟨c, rest⟩
  · -- nothing but blanks
    have hall : cs.all isBlank = true := trimLeft_eq_nil_iff.mp e
    have hright : trimRight cs = [] := by
      have happend := trimRight_append_of_blank [] (List.all_eq_true.mp hall)
      simpa using happend
    rw [hright, trim, e]
    rfl
  · have hc : isBlank c = false := isBlank_of_head_trimLeft c (by rw [e]; rfl)
    have hrest : trimRight (c :: rest) = c :: trimRight rest := trimRight_append_cons hc [] rest
    rw [trim, e, hrest, hcs, e, trimRight_append_cons hc, trimLeft_append_of_blank hfront]
    exact trimLeft_of_head (by simpa using hc)

@[simp] theorem trim_trim (cs : List Char) : trim (trim cs) = trim cs := by
  rw [← trimLeft_trimRight, trimRight_trim, ← trimLeft_trimRight, trimLeft_trimLeft]

@[simp] theorem trim_trimRight (cs : List Char) : trim (trimRight cs) = trim cs := by
  rw [← trimLeft_trimRight, trimRight_trimRight, trimLeft_trimRight]

theorem trimLeft_of_trim {cs : List Char} (h : trim cs = cs) : trimLeft cs = cs := by
  rw [← h, ← trimLeft_trimRight, trimLeft_trimLeft]

theorem trimRight_of_trim {cs : List Char} (h : trim cs = cs) : trimRight cs = cs := by
  rw [← h, trimRight_trim]

theorem map_trim_eq_self {ls : List (List Char)} (h : ∀ l ∈ ls, trim l = l) : ls.map trim = ls := by
  have hmap : ls.map trim = ls.map id := List.map_congr_left h
  rw [hmap, List.map_id]

/-- A trimmed text does not begin with a blank. -/
theorem isBlank_of_head_of_trim {cs : List Char} (h : trim cs = cs) :
    ∀ c ∈ cs.head?, isBlank c = false := by
  rw [← trimLeft_of_trim h]
  exact isBlank_of_head_trimLeft

/-! ### Spaced and indented texts -/

theorem intercalate_ne_nil {ws : List (List Char)} {w : List Char} (hw : w ∈ ws) (hne : w ≠ []) :
    [' '].intercalate ws ≠ [] :=
  fun e => hne (List.flatten_eq_nil_iff.mp (flatten_eq_nil_of_intercalate e) w hw)

/-- Words with single spaces between them are trimmed. -/
theorem trim_intercalate {ws : List (List Char)}
    (h : ∀ w ∈ ws, w ≠ [] ∧ ∀ c ∈ w, isBlank c = false) :
    trim ([' '].intercalate ws) = [' '].intercalate ws := by
  induction ws with
  | nil => rfl
  | cons w ws ih =>
    obtain ⟨hne, hw⟩ := h w List.mem_cons_self
    have hws : ∀ v ∈ ws, v ≠ [] ∧ ∀ c ∈ v, isBlank c = false :=
      fun v hv => h v (List.mem_cons_of_mem _ hv)
    obtain ⟨a, as, rfl⟩ := List.exists_cons_of_ne_nil hne
    have ha : isBlank a = false := hw a List.mem_cons_self
    cases ws with
    | nil =>
      rw [List.intercalate_singleton, trim, trimLeft_of_head (by simpa using ha),
        trimRight_of_not_isBlank hw]
    | cons v ws =>
      have hrest : trimRight ([' '].intercalate (v :: ws)) = [' '].intercalate (v :: ws) :=
        trimRight_of_trim (ih hws)
      have hsome : [' '].intercalate (v :: ws) ≠ [] :=
        intercalate_ne_nil List.mem_cons_self (hws v List.mem_cons_self).1
      rw [List.intercalate_cons_cons, trim, trimLeft_of_head (by simpa using ha),
        trimRight_append_of_ne_nil _ (by rwa [hrest]), hrest]

theorem isBlank_of_mem_replicate {k : Nat} : ∀ c ∈ List.replicate k ' ', isBlank c = true := by
  intro c hc
  rw [(List.mem_replicate.mp hc).2]
  decide

/-- A text behind spaces is indented by their number. -/
theorem indentation_replicate_append {cs : List Char} (h : ∀ c ∈ cs.head?, isBlank c = false)
    (k : Nat) : indentation (List.replicate k ' ' ++ cs) = k := by
  rw [indentation, (takeWhile_append_of_head isBlank_of_mem_replicate h).1, List.length_replicate]

end CodeOutline.Text
