/-
CodeOutline/Proofs/Docstring/Reading.lean

What each line of a docstring does.

`Reads s line s'` has one constructor for each kind of line and each thing that can be open, and
says what is known after it.  A line can be read exactly with the outcomes it lists
(`readLine_eq_ok_iff`), so what lines keep is shown by cases on it, and a docstring that is written
down is read by its constructors.
-/
import CodeOutline.Proofs.Docstring.Forms
import CodeOutline.Proofs.Outcome

namespace CodeOutline.Docstring

open Outcome Text

/-! ### Kinds of lines -/

/-- A line with text that begins in the first column. -/
structure IsFlush (line : List Char) : Prop where
  text : line.all isBlank = false
  indentation : indentation line = 0

/-- A line with text behind blanks. -/
structure IsIndented (line : List Char) : Prop where
  text : line.all isBlank = false
  indentation : indentation line ≠ 0

theorem IsFlush.not_isIndented {line : List Char} (h : IsFlush line) : ¬ IsIndented line :=
  fun hi => hi.indentation h.indentation

/-- A line begins in the first column if its first character is no blank. -/
theorem isFlush_cons {c : Char} (hc : isBlank c = false) (cs : List Char) : IsFlush (c :: cs) := by
  refine ⟨?_, ?_⟩
  · rw [List.all_cons, hc, Bool.false_and]
  · rw [indentation, List.takeWhile_cons_of_neg (by simp [hc]), List.length_nil]

/-! ### Entries that fields open -/

/-- The attributes of an entry that names something: the name, and its type if it has one. -/
def nameAndType (types : List (List Char)) (name : List Char) : List (String × String) :=
  match types with
  | [] => [("name", String.ofList name)]
  | _ => [("name", String.ofList name), ("type", String.ofList ([' '].intercalate types))]

theorem fieldEntry_eq_error_iff {name text : List Char} {argument : Option (List Char)}
    {f : Failure} :
    fieldEntry name argument text = .error f ↔
      f = .blankArgument ∧ ∃ a, argument = some a ∧ words a = [] := by
  unfold fieldEntry
  simp only
  split
  · simp
  · next a =>
    split
    · next h =>
      have hwords : words a = [] := List.reverse_eq_nil_iff.mp h
      simp only [Except.error.injEq, Option.some.injEq, exists_eq_left', hwords, and_true]
      exact eq_comm
    all_goals
      next h =>
        have hwords : words a ≠ [] := fun e => by simp [e] at h
        simp [hwords]

theorem fieldEntry_some {name argument text word : List Char} {types : List (List Char)}
    (h : words argument = types ++ [word]) :
    fieldEntry name (some argument) text
      = .ok ⟨fieldTag (String.ofList name), nameAndType types word, [text]⟩ := by
  have hreverse : (words argument).reverse = word :: types.reverse := by
    rw [h, List.reverse_append]
    rfl
  unfold fieldEntry
  simp only [hreverse]
  rcases List.eq_nil_or_concat types with rfl | ⟨init, last, rfl⟩
  · rfl
  · rw [List.concat_eq_append, List.reverse_append, List.reverse_singleton, List.singleton_append]
    have hback : (last :: init.reverse).reverse = init ++ [last] := by simp
    have hattributes : nameAndType (init ++ [last]) word = [("name", String.ofList word),
        ("type", String.ofList ([' '].intercalate (init ++ [last])))] := by
      rw [nameAndType]
      simp
    rw [hattributes, ← hback]

theorem argumentIn_eq_none_iff {inner : List Char} : argumentIn inner = none ↔ inner = [] := by
  unfold argumentIn
  split
  · next h => simp [h]
  · next h => split <;> simp [h]

/-- An argument has the words that stand between the name of the field and its colon. -/
theorem words_argumentIn {inner argument : List Char} (h : argumentIn inner = some argument) :
    words argument = words inner := by
  unfold argumentIn at h
  split at h
  · cases h
  · split at h
    · next hblank =>
      cases h
      rw [← words_trimLeft inner, hblank]
      rfl
    · cases h
      exact words_trimLeft inner

/-- A field without an argument opens an entry without a name.  Otherwise the last word of the
argument is the name. -/
theorem fieldEntry_eq_ok_iff {name inner text : List Char} {e : Entry} :
    fieldEntry name (argumentIn inner) text = .ok e ↔
      (inner = [] ∧ e = ⟨fieldTag (String.ofList name), [], [text]⟩) ∨
      ∃ types word, words inner = types ++ [word] ∧
        e = ⟨fieldTag (String.ofList name), nameAndType types word, [text]⟩ := by
  constructor
  · intro h
    rcases ha : argumentIn inner with - | argument
    · rw [ha] at h
      cases h
      exact .inl ⟨argumentIn_eq_none_iff.mp ha, rfl⟩
    · rw [ha] at h
      have hwords := words_argumentIn ha
      rcases List.eq_nil_or_concat (words argument) with hnil | ⟨types, word, hconcat⟩
      · have herror : fieldEntry name (some argument) text = .error .blankArgument :=
          fieldEntry_eq_error_iff.mpr ⟨rfl, argument, rfl, hnil⟩
        rw [herror] at h
        cases h
      · rw [List.concat_eq_append] at hconcat
        rw [fieldEntry_some hconcat] at h
        cases h
        exact .inr ⟨types, word, hwords ▸ hconcat, rfl⟩
  · rintro (⟨rfl, rfl⟩ | ⟨types, word, hwords, rfl⟩)
    · rfl
    · rcases ha : argumentIn inner with - | argument
      · rw [argumentIn_eq_none_iff.mp ha, words_nil] at hwords
        cases types <;> cases hwords
      · rw [← words_argumentIn ha] at hwords
        exact fieldEntry_some hwords

/-! ### One line -/

@[simp] theorem State.entries_start (s : State) (e : Entry) :
    (s.start e).entries = s.entries ++ [e] := by
  simp [State.start, State.entries]

@[simp] theorem State.entries_close (s : State) : s.close.entries = s.entries := by
  simp [State.close, State.entries]

theorem State.entries_of_current {s : State} {e : Entry} (h : s.current = some e) :
    s.entries = s.finished ++ [e] := by
  rw [State.entries, h]
  rfl

theorem State.entries_proceed_of_current {s : State} {e : Entry} (h : s.current = some e)
    (line : List Char) : (s.proceed line).entries = s.finished ++ [e.add line] := by
  rw [State.entries, State.proceed, h]
  rfl

/-- The indentation of the entries of a section, at a line in it. -/
def State.margin (s : State) (line : List Char) : Nat := s.itemIndent.getD (indentation line)

/-- What is known after a line, by what was known before it. -/
inductive Reads (s : State) (line : List Char) : State → Prop
  | blank (h : line.all isBlank = true) : Reads s line (readBlank s)
  | heading {tag : String} (flush : IsFlush line) (form : IsHeadingLine (trim line) tag)
      (hnamed : isNamedSection tag = true) :
      Reads s line { s.close with openSection := some tag, itemIndent := none }
  | plainHeading {tag : String} (flush : IsFlush line) (form : IsHeadingLine (trim line) tag)
      (hplain : isNamedSection tag = false) :
      Reads s line
        ({ s.close with openSection := some tag, itemIndent := none }.start ⟨tag, [], []⟩)
  | bareField {name rest : List Char} (flush : IsFlush line)
      (form : IsFieldLine (trim line) name [] rest) :
      Reads s line ({ s with openSection := none }.start
        ⟨fieldTag (String.ofList name), [], [trimLeft rest]⟩)
  | field {name inner rest word : List Char} {types : List (List Char)} (flush : IsFlush line)
      (form : IsFieldLine (trim line) name inner rest) (hwords : words inner = types ++ [word]) :
      Reads s line ({ s with openSection := none }.start
        ⟨fieldTag (String.ofList name), nameAndType types word, [trimLeft rest]⟩)
  | text (flush : IsFlush line) (noHeading : ∀ tag, ¬ IsHeadingLine (trim line) tag)
      (noField : ∀ name inner rest, ¬ IsFieldLine (trim line) name inner rest) :
      Reads s line ({ s.close with openSection := none }.describe (trimRight line))
  | entry {tag : String} {name rest : List Char} {type : Option (List Char)}
      (indented : IsIndented line) (hopen : s.openSection = some tag)
      (hnamed : isNamedSection tag = true) (least : indentation line ≤ s.margin line)
      (form : IsEntryLine (trim line) name type rest) :
      Reads s line ({ s with itemIndent := some (s.margin line) }.start
        (sectionEntry tag name type (trimLeft rest)))
  | further {tag : String} (indented : IsIndented line) (hopen : s.openSection = some tag)
      (hnamed : isNamedSection tag = true)
      (noEntry : indentation line ≤ s.margin line →
        ∀ name type rest, ¬ IsEntryLine (trim line) name type rest) :
      Reads s line ({ s with itemIndent := some (s.margin line) }.proceed (trim line))
  | continued (indented : IsIndented line)
      (hplain : ∀ tag ∈ s.openSection, isNamedSection tag = false) (hcurrent : s.current ≠ none) :
      Reads s line (s.proceed (trim line))
  | described (indented : IsIndented line)
      (hplain : ∀ tag ∈ s.openSection, isNamedSection tag = false) (hcurrent : s.current = none) :
      Reads s line (s.describe (trimRight line))

theorem header?_eq_none_iff {line : List Char} :
    header? line = none ↔ ∀ tag, ¬ IsHeadingLine line tag := by
  rw [Option.eq_none_iff_forall_ne_some]
  exact forall_congr' fun tag => not_congr header?_eq_some_iff

theorem field?_eq_none_iff {line : List Char} :
    field? line = none ↔ ∀ name inner rest, ¬ IsFieldLine line name inner rest := by
  constructor
  · intro h name inner rest hline
    rw [hline.field?] at h
    cases h
  · intro h
    rcases e : field? line with - | ⟨name, argument, text⟩
    · rfl
    · obtain ⟨inner, rest, hline, -⟩ := isFieldLine_of_field? e
      exact absurd hline (h name inner rest)

theorem entry?_eq_none_iff {line : List Char} :
    entry? line = none ↔ ∀ name type rest, ¬ IsEntryLine line name type rest := by
  constructor
  · intro h name type rest hline
    rw [entry?_eq_some_iff.mpr ⟨rest, hline, rfl⟩] at h
    cases h
  · intro h
    rcases e : entry? line with - | ⟨name, type, text⟩
    · rfl
    · obtain ⟨rest, hline, -⟩ := entry?_eq_some_iff.mp e
      exact absurd hline (h name type rest)

theorem reads_of_readFlush {s s' : State} {line : List Char} (flush : IsFlush line)
    (h : readFlush s line = .ok s') : Reads s line s' := by
  unfold readFlush at h
  split at h
  · next tag htag =>
    have form := header?_eq_some_iff.mp htag
    cases h
    split
    · next hnamed => exact .heading flush form hnamed
    · next hplain => exact .plainHeading flush form (Bool.eq_false_iff.mpr hplain)
  · next hheader =>
    split at h
    · next name argument text hfield =>
      obtain ⟨e, he, hs⟩ := bind_eq_ok_iff.mp h
      cases hs
      obtain ⟨inner, rest, form, rfl, rfl⟩ := isFieldLine_of_field? hfield
      rcases fieldEntry_eq_ok_iff.mp he with ⟨rfl, rfl⟩ | ⟨types, word, hwords, rfl⟩
      · exact .bareField flush form
      · exact .field flush form hwords
    · next hfield =>
      cases h
      exact .text flush (header?_eq_none_iff.mp hheader) (field?_eq_none_iff.mp hfield)

theorem reads_readIndented (s : State) {line : List Char} (indented : IsIndented line) :
    Reads s line (readIndented s line) := by
  unfold readIndented
  simp only
  split
  · next tag hopen =>
    split
    · next hnamed =>
      split
      · next name type value hentry =>
        split at hentry
        · next least =>
          obtain ⟨rest, form, rfl⟩ := entry?_eq_some_iff.mp hentry
          exact .entry indented hopen hnamed least form
        · cases hentry
      · next hentry =>
        refine .further indented hopen hnamed fun least => ?_
        rw [State.margin] at least
        rw [if_pos least] at hentry
        exact entry?_eq_none_iff.mp hentry
    · next hplain =>
      have hplain' : ∀ t ∈ s.openSection, isNamedSection t = false := by
        intro t ht
        rw [hopen, Option.mem_some_iff] at ht
        rw [← ht]
        exact Bool.eq_false_iff.mpr hplain
      split
      · next hc => exact .continued indented hplain' (Option.isSome_iff_ne_none.mp hc)
      · next hc => exact .described indented hplain' (by simpa using hc)
  · next hopen =>
    have hplain : ∀ t ∈ s.openSection, isNamedSection t = false := by simp [hopen]
    split
    · next hc => exact .continued indented hplain (Option.isSome_iff_ne_none.mp hc)
    · next hc => exact .described indented hplain (by simpa using hc)

theorem reads_of_readLine {s s' : State} {line : List Char} (h : readLine s line = .ok s') :
    Reads s line s' := by
  unfold readLine at h
  split at h
  · next hblank =>
    cases h
    exact .blank hblank
  · next htext =>
    have htext' : line.all isBlank = false := Bool.eq_false_iff.mpr htext
    split at h
    · next hflush => exact reads_of_readFlush ⟨htext', hflush⟩ h
    · next hindented =>
      cases h
      exact reads_readIndented s ⟨htext', hindented⟩

theorem IsFlush.readLine {line : List Char} (h : IsFlush line) (s : State) :
    Docstring.readLine s line = readFlush s line := by
  rw [Docstring.readLine, if_neg (by simp [h.text]), if_pos h.indentation]

theorem IsIndented.readLine {line : List Char} (h : IsIndented line) (s : State) :
    Docstring.readLine s line = .ok (readIndented s line) := by
  rw [Docstring.readLine, if_neg (by simp [h.text]), if_neg h.indentation]

/-- In a section without names, and outside of sections, a line goes on with what is open. -/
theorem readIndented_of_plain {s : State}
    (hplain : ∀ tag ∈ s.openSection, isNamedSection tag = false) (line : List Char) :
    readIndented s line
      = if s.current.isSome then s.proceed (trim line) else s.describe (trimRight line) := by
  unfold readIndented
  rcases hopen : s.openSection with - | tag
  · rfl
  · have hfalse : isNamedSection tag = false := hplain tag hopen
    simp only [hfalse, Bool.false_eq_true, if_false]

theorem Reads.readLine {s s' : State} {line : List Char} (h : Reads s line s') :
    Docstring.readLine s line = .ok s' := by
  cases h with
  | blank h => rw [Docstring.readLine, if_pos h]
  | heading flush form hnamed =>
    rw [flush.readLine, readFlush, header?_eq_some_iff.mpr form]
    simp only [hnamed, if_true]
  | plainHeading flush form hplain =>
    rw [flush.readLine, readFlush, header?_eq_some_iff.mpr form]
    simp only [hplain, Bool.false_eq_true, if_false]
  | bareField flush form =>
    rw [flush.readLine, readFlush, header?_eq_none_iff.mpr (form.not_isHeadingLine), form.field?]
    rfl
  | field flush form hwords =>
    rw [flush.readLine, readFlush, header?_eq_none_iff.mpr (form.not_isHeadingLine), form.field?]
    simp only [fieldEntry_eq_ok_iff.mpr (.inr ⟨_, _, hwords, rfl⟩), ok_bind, pure_eq]
  | text flush noHeading noField =>
    rw [flush.readLine, readFlush, header?_eq_none_iff.mpr noHeading,
      field?_eq_none_iff.mpr noField]
  | entry indented hopen hnamed least form =>
    have hentry := entry?_eq_some_iff.mpr ⟨_, form, rfl⟩
    rw [indented.readLine, readIndented]
    simp only [hopen, hnamed, if_true, State.margin] at least ⊢
    simp only [if_pos least, hentry]
  | further indented hopen hnamed noEntry =>
    have hentry :
        (if indentation line ≤ s.margin line then entry? (trim line) else none) = none := by
      split
      · next least => exact entry?_eq_none_iff.mpr (noEntry least)
      · rfl
    rw [State.margin] at hentry
    rw [indented.readLine, readIndented]
    simp only [hopen, hnamed, if_true, hentry, State.margin]
  | continued indented hplain hcurrent =>
    rw [indented.readLine, readIndented_of_plain hplain,
      if_pos (Option.isSome_iff_ne_none.mpr hcurrent)]
  | described indented hplain hcurrent =>
    rw [indented.readLine, readIndented_of_plain hplain, if_neg (by simp [hcurrent])]

/-- A line can be read with exactly these outcomes. -/
theorem readLine_eq_ok_iff {s s' : State} {line : List Char} :
    readLine s line = .ok s' ↔ Reads s line s' :=
  ⟨reads_of_readLine, Reads.readLine⟩

end CodeOutline.Docstring
