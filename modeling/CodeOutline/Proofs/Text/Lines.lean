/-
CodeOutline/Proofs/Text/Lines.lean

Lines that are set one below the other are read back.

A line without a line break of its own that is followed by a line feed is cut off as it stands
(`splitLines_append_lineFeed`).  So cutting undoes joining, with one exception: an empty line at
the end leaves no trace, since no line is begun after the last break (`splitLines_intercalate`).
Such a line does not matter to a text that is trimmed as a whole, and neither does one in front
(`joinTrimmed_concat_nil`, `joinTrimmed_cons_nil`).

A text is cut at a character where that stands (`splitOn_append_cons`), and nowhere else
(`splitOn_of_notMem`).
-/
import CodeOutline.Proofs.Text.Words

namespace CodeOutline.Text

/-! ### Cutting what was joined -/

/-- A text that can stand on one line. -/
def IsUnbroken (line : List Char) : Prop := ∀ c ∈ line, isLineBreak c = false

theorem isUnbroken_nil : IsUnbroken [] := fun _ hc => absurd hc List.not_mem_nil

theorem IsUnbroken.append {a b : List Char} (ha : IsUnbroken a) (hb : IsUnbroken b) :
    IsUnbroken (a ++ b) := List.forall_mem_append.mpr ⟨ha, hb⟩

/-- Every line break is a blank. -/
theorem isUnbroken_of_not_isBlank {cs : List Char} (h : ∀ c ∈ cs, isBlank c = false) :
    IsUnbroken cs := by
  intro c hc
  have hblank := h c hc
  rw [Bool.eq_false_iff] at hblank ⊢
  intro hbreak
  apply hblank
  simp only [isLineBreak, isBlank, Bool.or_eq_true, Bool.and_eq_true, decide_eq_true_eq,
    beq_iff_eq] at hbreak ⊢
  omega

theorem splitLines_cons {c : Char} (hc : isLineBreak c = false) (cs : List Char) :
    splitLines (c :: cs) = joinFirst c (splitLines cs) := by
  have hne : c ≠ '\r' := by
    rintro rfl
    exact absurd hc (by decide)
  rw [splitLines]
  · rw [if_neg (by simp [hc])]
  · intro _ he
    exact absurd he hne

theorem splitLines_of_isUnbroken {line : List Char} (h : IsUnbroken line) (hne : line ≠ []) :
    splitLines line = [line] := by
  induction line with
  | nil => exact absurd rfl hne
  | cons c line ih =>
    rw [splitLines_cons (h c List.mem_cons_self)]
    cases line with
    | nil => rfl
    | cons d line =>
      rw [ih (fun e he => h e (List.mem_cons_of_mem _ he)) (by simp)]
      rfl

/-- A line in front of a line feed is cut off. -/
theorem splitLines_append_lineFeed {line : List Char} (h : IsUnbroken line) (rest : List Char) :
    splitLines (line ++ '\n' :: rest) = line :: splitLines rest := by
  induction line with
  | nil => rfl
  | cons c line ih =>
    rw [List.cons_append, splitLines_cons (h c List.mem_cons_self),
      ih fun d hd => h d (List.mem_cons_of_mem _ hd)]
    rfl

/-- Lines that end with a line feed each are cut off as they stand. -/
theorem splitLines_flatMap_lineFeed {ls : List (List Char)} (h : ∀ l ∈ ls, IsUnbroken l)
    (rest : List Char) :
    splitLines (ls.flatMap (· ++ ['\n']) ++ rest) = ls ++ splitLines rest := by
  induction ls with
  | nil => rfl
  | cons l ls ih =>
    rw [List.flatMap_cons, List.append_assoc, List.append_assoc, List.singleton_append,
      splitLines_append_lineFeed (h l List.mem_cons_self),
      ih fun k hk => h k (List.mem_cons_of_mem _ hk), List.cons_append]

/-- Of lines set one below the other all but the last end with a line feed. -/
theorem intercalate_concat (sep : List Char) (ls : List (List Char)) (last : List Char) :
    sep.intercalate (ls ++ [last]) = ls.flatMap (· ++ sep) ++ last := by
  induction ls with
  | nil => simp
  | cons l ls ih =>
    rcases e : ls ++ [last] with - | ⟨k, ks⟩
    · simp at e
    · rw [List.cons_append, e, List.intercalate_cons_cons, ← e, ih, List.flatMap_cons,
        List.append_assoc (l ++ sep)]

theorem intercalate_concat_of_ne_nil (sep : List Char) {ls : List (List Char)} (h : ls ≠ [])
    (last : List Char) : sep.intercalate (ls ++ [last]) = sep.intercalate ls ++ (sep ++ last) := by
  rcases List.eq_nil_or_concat ls with rfl | ⟨init, l, rfl⟩
  · exact absurd rfl h
  · rw [List.concat_eq_append, intercalate_concat, intercalate_concat, List.flatMap_append,
      List.flatMap_singleton]
    simp only [List.append_assoc]

/-- Lines are read back, but for an empty one at the end. -/
theorem splitLines_intercalate {ls : List (List Char)} (h : ∀ l ∈ ls, IsUnbroken l) :
    splitLines (['\n'].intercalate ls) = ls ∨
      ls = splitLines (['\n'].intercalate ls) ++ [[]] := by
  rcases List.eq_nil_or_concat ls with rfl | ⟨init, last, rfl⟩
  · exact .inl rfl
  · rw [List.concat_eq_append] at h ⊢
    have hinit : ∀ l ∈ init, IsUnbroken l := fun l hl => h l (List.mem_append_left _ hl)
    rw [intercalate_concat, splitLines_flatMap_lineFeed hinit]
    by_cases hne : last = []
    · subst hne
      right
      rw [splitLines_nil, List.append_nil]
    · left
      rw [splitLines_of_isUnbroken (h last (by simp)) hne]

/-! ### Tabs -/

theorem expandTabsFrom_of_notMem {cs : List Char} (h : '\t' ∉ cs) (column : Nat) :
    expandTabsFrom column cs = cs := by
  induction cs generalizing column with
  | nil => rfl
  | cons c cs ih =>
    have hc : c ≠ '\t' := fun e => h (e ▸ List.mem_cons_self)
    have hcs : '\t' ∉ cs := fun hmem => h (List.mem_cons_of_mem _ hmem)
    rw [expandTabsFrom, if_neg hc, ih hcs, ih hcs, ite_self]

/-- What holds of the separator and of the characters of all lines holds of the joined text. -/
theorem forall_mem_intercalate {P : Char → Prop} {sep : Char} (hsep : P sep)
    {ls : List (List Char)} (h : ∀ l ∈ ls, ∀ c ∈ l, P c) : ∀ c ∈ [sep].intercalate ls, P c := by
  induction ls with
  | nil => exact fun c hc => absurd hc List.not_mem_nil
  | cons l ls ih =>
    have hl : ∀ c ∈ l, P c := h l List.mem_cons_self
    have hls := ih fun k hk => h k (List.mem_cons_of_mem _ hk)
    cases ls with
    | nil => rwa [List.intercalate_singleton]
    | cons k ks =>
      rw [List.intercalate_cons_cons, List.forall_mem_append, List.forall_mem_append,
        List.forall_mem_singleton]
      exact ⟨⟨hl, hsep⟩, hls⟩

/-! ### Empty lines at the ends -/

theorem isBlank_of_mem_lineFeed : ∀ c ∈ ['\n'], isBlank c = true := by
  intro c hc
  rw [List.mem_singleton.mp hc]
  decide

theorem joinTrimmed_cons_nil (ls : List (List Char)) :
    joinTrimmed ([] :: ls) = joinTrimmed ls := by
  cases ls with
  | nil => rfl
  | cons l ls =>
    rw [joinTrimmed, List.intercalate_cons_cons, List.nil_append,
      trim_append_of_blank isBlank_of_mem_lineFeed, joinTrimmed]

theorem joinTrimmed_concat_nil (ls : List (List Char)) :
    joinTrimmed (ls ++ [[]]) = joinTrimmed ls := by
  rcases List.eq_nil_or_concat ls with rfl | ⟨init, last, rfl⟩
  · rfl
  · -- the last line that is not the empty one gets a line feed behind it
    rw [List.concat_eq_append, joinTrimmed, joinTrimmed, intercalate_concat, intercalate_concat,
      List.append_nil, List.flatMap_append, List.flatMap_singleton, ← List.append_assoc,
      ← trim_trimRight, trimRight_append_of_blank _ isBlank_of_mem_lineFeed, trim_trimRight]

/-! ### Cutting at a character -/

theorem mem_of_mem_splitOn {sep c : Char} {part cs : List Char} (hpart : part ∈ splitOn sep cs)
    (hc : c ∈ part) : c ∈ cs := by
  induction cs generalizing part with
  | nil =>
    rw [List.mem_singleton.mp hpart] at hc
    cases hc
  | cons d cs ih =>
    rw [splitOn] at hpart
    split at hpart
    · -- a part ends here, and nothing of it is read yet
      rcases List.mem_cons.mp hpart with rfl | hpart
      · cases hc
      · exact List.mem_cons_of_mem _ (ih hpart hc)
    · rcases e : splitOn sep cs with - | ⟨l, ls⟩
      · exact absurd e (splitOn_ne_nil sep cs)
      · -- the character goes to the first of the parts that follow
        rw [e] at hpart ih
        rcases List.mem_cons.mp hpart with rfl | hpart
        · rcases List.mem_cons.mp hc with rfl | hc
          · exact List.mem_cons_self
          · exact List.mem_cons_of_mem _ (ih List.mem_cons_self hc)
        · exact List.mem_cons_of_mem _ (ih (List.mem_cons_of_mem _ hpart) hc)

/-- No piece holds the character at which the text is cut. -/
theorem sep_notMem_of_mem_splitOn {sep : Char} {part cs : List Char}
    (hpart : part ∈ splitOn sep cs) : sep ∉ part := by
  induction cs generalizing part with
  | nil =>
    rw [List.mem_singleton.mp hpart]
    exact List.not_mem_nil
  | cons c cs ih =>
    rw [splitOn] at hpart
    split at hpart
    · rcases List.mem_cons.mp hpart with rfl | hpart
      · exact List.not_mem_nil
      · exact ih hpart
    · next hc =>
      rcases e : splitOn sep cs with - | ⟨l, ls⟩
      · exact absurd e (splitOn_ne_nil sep cs)
      · rw [e] at hpart ih
        rcases List.mem_cons.mp hpart with rfl | hpart
        · rw [List.mem_cons, not_or]
          exact ⟨Ne.symm hc, ih List.mem_cons_self⟩
        · exact ih (List.mem_cons_of_mem _ hpart)

theorem splitOn_append_cons (sep : Char) (front back : List Char) :
    splitOn sep (front ++ sep :: back) = splitOn sep front ++ splitOn sep back := by
  induction front with
  | nil => simp [splitOn]
  | cons c cs ih =>
    rw [List.cons_append, splitOn, splitOn, ih]
    split
    · rw [List.cons_append]
    · exact joinFirst_append (splitOn_ne_nil sep cs) c _

theorem splitOn_of_notMem {sep : Char} {cs : List Char} (h : sep ∉ cs) : splitOn sep cs = [cs] := by
  induction cs with
  | nil => rfl
  | cons c cs ih =>
    rw [List.mem_cons, not_or] at h
    rw [splitOn, if_neg (Ne.symm h.1), ih h.2, joinFirst]

end CodeOutline.Text
