/-
CodeOutline/Proofs/Docstring/Account.lean

What becomes of each line of a docstring.

`Accounts lost lines description entries` goes through the lines from the first to the last: each
line with text that is no heading is kept in the description, goes on with the entry opened last, or
is a field or an entry of a section and opens an entry of its own.  Only lines of which `lost` holds
may be passed over.

One kind of line is lost (`IsStray`): a line in a section of named entries that has no entry yet and
does not open one.  There is no entry that it could go on with, and it is not put into the
description either, as an indented line is in every other place without an open entry.  All other
lines are accounted for (`exists_accounts`), and such a line always is lost (`Accounts.of_isStray`),
so it is not true that no line is (`not_forall_accounts`).

Which section is open, and whether it has an entry, is said by the lines since its heading
(`Inside`, `IsUnopened`); `Knows` ties what is known after some lines to them, line by line.
-/
import CodeOutline.Proofs.Docstring
import Mathlib.Data.List.Induction

namespace CodeOutline.Docstring

open Outcome Text

variable {lost : List (List Char) → List Char → Prop} {before ls : List (List Char)}
  {line : List Char} {tag : String}

/-! ### Sections -/

/-- After some lines, a section about `tag` is open and has the lines `inside`. -/
structure Inside (tag : String) (before inside : List (List Char)) : Prop where
  heading : ∃ front heading, before = front ++ heading :: inside ∧ IsFlush heading ∧
    IsHeadingLine (trim heading) tag
  within : ∀ l ∈ inside, ¬ IsFlush l

/-- The indentation of the entries of a section with the given lines: that of the first of them with
text. -/
def marginOf (inside : List (List Char)) : Option Nat :=
  (inside.find? fun l => !l.all isBlank).map indentation

/-- A line that opens an entry in a section with the given lines in front of it. -/
structure OpensEntry (inside : List (List Char)) (line : List Char) : Prop where
  indented : IsIndented line
  least : indentation line ≤ (marginOf inside).getD (indentation line)
  form : ∃ name type rest, IsEntryLine (trim line) name type rest

/-- No line of a section opens an entry. -/
def IsUnopened (inside : List (List Char)) : Prop :=
  ∀ front line back, inside = front ++ line :: back → ¬ OpensEntry front line

/-- A line of a section of named entries before the first of them. -/
structure IsStray (before : List (List Char)) (line : List Char) : Prop where
  indented : IsIndented line
  unopened : ∃ tag inside, Inside tag before inside ∧ isNamedSection tag = true ∧
    IsUnopened (inside ++ [line])

/-! ### Accounts -/

/-- What becomes of lines: the lines of the description and the entries they make up.  A line that
is lost makes up neither. -/
inductive Accounts (lost : List (List Char) → List Char → Prop) :
    List (List Char) → List (List Char) → List Entry → Prop
  | nil : Accounts lost [] [] []
  /-- A line without text leaves nothing, or an empty line in the description or an entry. -/
  | blank {before ds es line} (h : Accounts lost before ds es) (hblank : line.all isBlank = true) :
      Accounts lost (before ++ [line]) ds es
  | blankKept {before ds es line} (h : Accounts lost before ds es)
      (hblank : line.all isBlank = true) : Accounts lost (before ++ [line]) (ds ++ [[]]) es
  | blankAppended {before ds es e line} (h : Accounts lost before ds (es ++ [e]))
      (hblank : line.all isBlank = true) :
      Accounts lost (before ++ [line]) ds (es ++ [e.add []])
  /-- A heading of named entries has no text of its own. -/
  | heading {before ds es line tag} (h : Accounts lost before ds es) (flush : IsFlush line)
      (form : IsHeadingLine (trim line) tag) (hnamed : isNamedSection tag = true) :
      Accounts lost (before ++ [line]) ds es
  /-- Any other heading opens the one entry of its section. -/
  | plainHeading {before ds es line tag} (h : Accounts lost before ds es) (flush : IsFlush line)
      (form : IsHeadingLine (trim line) tag) (hplain : isNamedSection tag = false) :
      Accounts lost (before ++ [line]) ds (es ++ [⟨tag, [], []⟩])
  /-- A line that is neither a heading nor a field is kept in the description. -/
  | kept {before ds es line} (h : Accounts lost before ds es) (flush : IsFlush line)
      (noHeading : ∀ tag, ¬ IsHeadingLine (trim line) tag)
      (noField : ∀ name inner rest, ¬ IsFieldLine (trim line) name inner rest) :
      Accounts lost (before ++ [line]) (ds ++ [trimRight line]) es
  /-- So is an indented line, outside of sections of named entries. -/
  | keptIndented {before ds es line} (h : Accounts lost before ds es) (indented : IsIndented line)
      (outside : ∀ tag inside, Inside tag before inside → isNamedSection tag = false) :
      Accounts lost (before ++ [line]) (ds ++ [trimRight line]) es
  /-- An indented line that opens no entry goes on with the entry opened last. -/
  | appended {before ds es e line} (h : Accounts lost before ds (es ++ [e]))
      (indented : IsIndented line)
      (noEntry : ∀ tag inside, Inside tag before inside → isNamedSection tag = true →
        ¬ OpensEntry inside line)
      (hlost : ¬ lost before line) :
      Accounts lost (before ++ [line]) ds (es ++ [e.add (trim line)])
  /-- A field without an argument opens an entry with its text. -/
  | bareField {before ds es line name rest} (h : Accounts lost before ds es) (flush : IsFlush line)
      (form : IsFieldLine (trim line) name [] rest) :
      Accounts lost (before ++ [line]) ds
        (es ++ [⟨fieldTag (String.ofList name), [], [trimLeft rest]⟩])
  /-- A field opens an entry with its name, type and text. -/
  | field {before ds es line name inner rest types word} (h : Accounts lost before ds es)
      (flush : IsFlush line) (form : IsFieldLine (trim line) name inner rest)
      (hwords : words inner = types ++ [word]) :
      Accounts lost (before ++ [line]) ds
        (es ++ [⟨fieldTag (String.ofList name), nameAndType types word, [trimLeft rest]⟩])
  /-- A line of a section opens an entry with its name, type and text. -/
  | entry {before ds es line tag inside name type rest} (h : Accounts lost before ds es)
      (within : Inside tag before inside) (hnamed : isNamedSection tag = true)
      (opens : OpensEntry inside line) (form : IsEntryLine (trim line) name type rest) :
      Accounts lost (before ++ [line]) ds (es ++ [sectionEntry tag name type (trimLeft rest)])
  /-- A line that is lost leaves nothing. -/
  | lost {before ds es line} (h : Accounts lost before ds es) (hlost : lost before line) :
      Accounts lost (before ++ [line]) ds es

/-! ### Sections, line by line -/

theorem not_isFlush_of_blank (h : line.all isBlank = true) : ¬ IsFlush line := by
  intro hflush
  rw [hflush.text] at h
  cases h

theorem IsIndented.not_isFlush (h : IsIndented line) : ¬ IsFlush line :=
  fun hflush => h.indentation hflush.indentation

/-- A section begins with a heading and has the lines up to the next line without indentation. -/
theorem inside_concat_iff :
    Inside tag (before ++ [line]) ls ↔
      (ls = [] ∧ IsFlush line ∧ IsHeadingLine (trim line) tag) ∨
      ∃ inside, ls = inside ++ [line] ∧ ¬ IsFlush line ∧ Inside tag before inside := by
  constructor
  · rintro ⟨⟨front, heading, hbefore, hflush, hform⟩, hwithin⟩
    rcases List.eq_nil_or_concat ls with rfl | ⟨inside, last, rfl⟩
    · obtain ⟨-, hline⟩ := List.append_inj' hbefore rfl
      cases hline
      exact .inl ⟨rfl, hflush, hform⟩
    · rw [List.concat_eq_append] at hbefore hwithin ⊢
      have happend : before ++ [line] = (front ++ heading :: inside) ++ [last] := by
        rw [hbefore, List.append_assoc, List.cons_append]
      obtain ⟨hfront, hline⟩ := List.append_inj' happend rfl
      cases hline
      refine .inr ⟨inside, rfl, hwithin line (by simp), ⟨front, heading, hfront, hflush, hform⟩, ?_⟩
      exact fun l hl => hwithin l (List.mem_append_left _ hl)
  · rintro (⟨rfl, hflush, hform⟩ | ⟨inside, rfl, hline, hinside⟩)
    · exact ⟨⟨before, line, rfl, hflush, hform⟩, by simp⟩
    · obtain ⟨⟨front, heading, rfl, hflush, hform⟩, hwithin⟩ := hinside
      refine ⟨⟨front, heading, by simp, hflush, hform⟩, ?_⟩
      rw [List.forall_mem_append, List.forall_mem_singleton]
      exact ⟨hwithin, hline⟩

/-- At most one section is open. -/
theorem Inside.unique {tag' : String} {ls' : List (List Char)} (h : Inside tag before ls)
    (h' : Inside tag' before ls') : ls = ls' := by
  induction before using List.reverseRecOn generalizing ls ls' with
  | nil =>
    obtain ⟨front, heading, hnil, -⟩ := h.heading
    simp at hnil
  | append_singleton before line ih =>
    rcases inside_concat_iff.mp h with ⟨rfl, hflush, -⟩ | ⟨inside, rfl, hline, hinside⟩
    · rcases inside_concat_iff.mp h' with ⟨rfl, -⟩ | ⟨-, -, hline', -⟩
      · rfl
      · exact absurd hflush hline'
    · rcases inside_concat_iff.mp h' with ⟨-, hflush', -⟩ | ⟨inside', rfl, -, hinside'⟩
      · exact absurd hflush' hline
      · rw [ih hinside hinside']

theorem marginOf_concat_of_blank (h : line.all isBlank = true) :
    marginOf (ls ++ [line]) = marginOf ls := by
  rw [marginOf, List.find?_append, List.find?_singleton]
  simp [h, marginOf]

theorem marginOf_concat_of_text (h : line.all isBlank = false) :
    marginOf (ls ++ [line]) = some ((marginOf ls).getD (indentation line)) := by
  rw [marginOf, List.find?_append, List.find?_singleton, h, marginOf]
  rcases e : ls.find? (fun l => !l.all isBlank) with - | l
  · rw [e]
    rfl
  · rw [e]
    rfl

theorem isUnopened_nil : IsUnopened [] := by
  intro front line back h
  simp at h

theorem isUnopened_concat_iff :
    IsUnopened (ls ++ [line]) ↔ IsUnopened ls ∧ ¬ OpensEntry ls line := by
  constructor
  · intro h
    refine ⟨fun front l back hls => h front l (back ++ [line]) ?_, h ls line [] rfl⟩
    rw [hls, List.append_assoc, List.cons_append]
  · rintro ⟨hls, hline⟩ front l back heq
    rcases List.eq_nil_or_concat back with rfl | ⟨back, last, rfl⟩
    · obtain ⟨rfl, hl⟩ := List.append_inj' heq rfl
      cases hl
      exact hline
    · rw [List.concat_eq_append, ← List.cons_append, ← List.append_assoc] at heq
      exact hls front l back (List.append_inj' heq rfl).1

/-! ### What is known -/

/-- What is known after some lines about the section that is open. -/
structure Knows (before : List (List Char)) (s : State) : Prop where
  openSection : ∀ tag inside, Inside tag before inside → s.openSection = some tag
  inside : ∀ tag ∈ s.openSection, ∃ inside, Inside tag before inside
  named : ∀ tag inside, Inside tag before inside → isNamedSection tag = true →
    s.itemIndent = marginOf inside ∧ (s.current = none ↔ IsUnopened inside)

theorem knows_initial : Knows [] {} := by
  have hnone : ∀ tag inside, ¬ Inside tag [] inside := by
    rintro tag inside ⟨⟨front, heading, h, -⟩, -⟩
    simp at h
  exact ⟨fun tag ls h => absurd h (hnone tag ls), by simp, fun tag ls h => absurd h (hnone tag ls)⟩

/-- A line in the first column that is no heading closes the section. -/
theorem Knows.of_text {s : State} (hflush : IsFlush line)
    (hform : ∀ tag, ¬ IsHeadingLine (trim line) tag) (hs : s.openSection = none) :
    Knows (before ++ [line]) s := by
  have hnone : ∀ tag inside, ¬ Inside tag (before ++ [line]) inside := by
    intro tag inside h
    rcases inside_concat_iff.mp h with ⟨-, -, htag⟩ | ⟨-, -, hline, -⟩
    · exact hform tag htag
    · exact hline hflush
  exact ⟨fun tag ls h => absurd h (hnone tag ls), by simp [hs],
    fun tag ls h => absurd h (hnone tag ls)⟩

/-- A heading opens its section. -/
theorem Knows.of_heading {s : State} (hflush : IsFlush line) (hform : IsHeadingLine (trim line) tag)
    (hs : s.openSection = some tag)
    (hnamed : isNamedSection tag = true → s.itemIndent = none ∧ s.current = none) :
    Knows (before ++ [line]) s := by
  have honly : ∀ t inside, Inside t (before ++ [line]) inside → t = tag ∧ inside = [] := by
    intro t inside h
    rcases inside_concat_iff.mp h with ⟨hinside, -, ht⟩ | ⟨-, -, hline, -⟩
    · have hsome := (header?_eq_some_iff.mpr ht).symm.trans (header?_eq_some_iff.mpr hform)
      exact ⟨Option.some.inj hsome, hinside⟩
    · exact absurd hflush hline
  refine ⟨?_, ?_, ?_⟩
  · intro t inside h
    rw [hs, (honly t inside h).1]
  · intro t ht
    rw [hs, Option.mem_some_iff] at ht
    exact ⟨[], inside_concat_iff.mpr (.inl ⟨rfl, hflush, ht ▸ hform⟩)⟩
  · intro t inside h ht
    obtain ⟨rfl, rfl⟩ := honly t inside h
    obtain ⟨hmargin, hcurrent⟩ := hnamed ht
    exact ⟨hmargin, iff_of_true hcurrent isUnopened_nil⟩

/-- Any other line belongs to the section that is open. -/
theorem Knows.of_within {s s' : State} (h : Knows before s) (hline : ¬ IsFlush line)
    (hs : s'.openSection = s.openSection)
    (hnamed : ∀ tag inside, Inside tag before inside → isNamedSection tag = true →
      s'.itemIndent = marginOf (inside ++ [line]) ∧
        (s'.current = none ↔ s.current = none ∧ ¬ OpensEntry inside line)) :
    Knows (before ++ [line]) s' := by
  have hback : ∀ tag ls, Inside tag (before ++ [line]) ls →
      ∃ inside, ls = inside ++ [line] ∧ Inside tag before inside := by
    intro tag ls hls
    rcases inside_concat_iff.mp hls with ⟨-, hflush, -⟩ | ⟨inside, rfl, -, hinside⟩
    · exact absurd hflush hline
    · exact ⟨inside, rfl, hinside⟩
  refine ⟨?_, ?_, ?_⟩
  · intro tag ls hls
    obtain ⟨inside, -, hinside⟩ := hback tag ls hls
    rw [hs, h.openSection tag inside hinside]
  · intro tag htag
    rw [hs] at htag
    obtain ⟨inside, hinside⟩ := h.inside tag htag
    exact ⟨_, inside_concat_iff.mpr (.inr ⟨inside, rfl, hline, hinside⟩)⟩
  · intro tag ls hls htag
    obtain ⟨inside, rfl, hinside⟩ := hback tag ls hls
    obtain ⟨hmargin, hcurrent⟩ := hnamed tag inside hinside htag
    refine ⟨hmargin, ?_⟩
    rw [hcurrent, (h.named tag inside hinside htag).2, isUnopened_concat_iff]

@[simp] theorem State.current_proceed_eq_none_iff {s : State} {line : List Char} :
    (s.proceed line).current = none ↔ s.current = none := by
  simp [State.proceed]

theorem readBlank_openSection (s : State) : (readBlank s).openSection = s.openSection := by
  unfold readBlank
  split
  · rfl
  · split <;> rfl

theorem readBlank_itemIndent (s : State) : (readBlank s).itemIndent = s.itemIndent := by
  unfold readBlank
  split
  · rfl
  · split <;> rfl

theorem readBlank_current_eq_none_iff (s : State) :
    (readBlank s).current = none ↔ s.current = none := by
  unfold readBlank
  split
  · exact State.current_proceed_eq_none_iff
  · split <;> rfl

/-- In a section of named entries, the margin is known. -/
theorem Knows.margin {s : State} (h : Knows before s) (hinside : Inside tag before ls)
    (htag : isNamedSection tag = true) :
    s.margin line = (marginOf ls).getD (indentation line) := by
  rw [State.margin, (h.named tag ls hinside htag).1]

theorem Knows.not_opensEntry {s : State} (h : Knows before s) (hinside : Inside tag before ls)
    (htag : isNamedSection tag = true)
    (noEntry : indentation line ≤ s.margin line →
      ∀ name type rest, ¬ IsEntryLine (trim line) name type rest) : ¬ OpensEntry ls line := by
  rintro ⟨-, least, name, type, rest, form⟩
  rw [h.margin hinside htag] at noEntry
  exact noEntry least name type rest form

/-- One more line is known. -/
theorem Knows.step {s s' : State} (h : Knows before s) (hread : Reads s line s') :
    Knows (before ++ [line]) s' := by
  cases hread with
  | blank hblank =>
    refine h.of_within (not_isFlush_of_blank hblank) (readBlank_openSection s) ?_
    intro tag inside hinside htag
    have hno : ¬ OpensEntry inside line := by
      intro hopens
      rw [hopens.indented.text] at hblank
      cases hblank
    rw [readBlank_itemIndent, marginOf_concat_of_blank hblank, readBlank_current_eq_none_iff]
    exact ⟨(h.named tag inside hinside htag).1, by simp [hno]⟩
  | heading flush form hnamed => exact .of_heading flush form rfl fun _ => ⟨rfl, rfl⟩
  | plainHeading flush form hplain =>
    refine .of_heading flush form rfl fun hnamed => ?_
    rw [hplain] at hnamed
    cases hnamed
  | bareField flush form => exact .of_text flush form.not_isHeadingLine rfl
  | field flush form hwords => exact .of_text flush form.not_isHeadingLine rfl
  | text flush noHeading noField => exact .of_text flush noHeading rfl
  | entry indented hopen hnamed least form =>
    refine h.of_within indented.not_isFlush rfl fun tag inside hinside htag => ?_
    have hopens : OpensEntry inside line :=
      ⟨indented, h.margin hinside htag ▸ least, _, _, _, form⟩
    rw [marginOf_concat_of_text indented.text, ← h.margin hinside htag]
    exact ⟨rfl, by simp [State.start, hopens]⟩
  | further indented hopen hnamed noEntry =>
    refine h.of_within indented.not_isFlush rfl fun tag inside hinside htag => ?_
    have hno : ¬ OpensEntry inside line := h.not_opensEntry hinside htag noEntry
    rw [marginOf_concat_of_text indented.text, ← h.margin hinside htag]
    exact ⟨rfl, by simp [hno]⟩
  | continued indented hplain hcurrent =>
    refine h.of_within indented.not_isFlush rfl fun tag inside hinside htag => ?_
    rw [hplain tag (h.openSection tag inside hinside)] at htag
    cases htag
  | described indented hplain hcurrent =>
    refine h.of_within indented.not_isFlush rfl fun tag inside hinside htag => ?_
    rw [hplain tag (h.openSection tag inside hinside)] at htag
    cases htag

/-! ### Accounts, line by line -/

/-- A line that is lost finds no entry open. -/
theorem Knows.of_isStray {s : State} (h : Knows before s) (hstray : IsStray before line) :
    s.current = none := by
  obtain ⟨tag, inside, hinside, htag, hunopened⟩ := hstray.unopened
  exact (h.named tag inside hinside htag).2.mpr (isUnopened_concat_iff.mp hunopened).1

theorem State.entries_proceed_of_none {s : State} (h : s.current = none) (line : List Char) :
    (s.proceed line).entries = s.entries := by
  rw [State.entries, State.entries, State.proceed, h]
  rfl

/-- One more line is accounted for. -/
theorem Accounts.step {s s' : State} (h : Accounts IsStray before s.description s.entries)
    (hknows : Knows before s) (hread : Reads s line s') :
    Accounts IsStray (before ++ [line]) s'.description s'.entries := by
  cases hread with
  | blank hblank =>
    unfold readBlank
    split
    · next hcurrent =>
      obtain ⟨e, he⟩ := Option.isSome_iff_exists.mp hcurrent
      rw [State.entries_proceed_of_current he]
      rw [State.entries_of_current he] at h
      exact h.blankAppended hblank
    · split
      · exact h.blankKept hblank
      · exact h.blank hblank
  | heading flush form hnamed =>
    rw [← s.entries_close] at h
    exact h.heading flush form hnamed
  | plainHeading flush form hplain =>
    rw [← s.entries_close] at h
    rw [State.entries_start]
    exact h.plainHeading flush form hplain
  | bareField flush form =>
    rw [State.entries_start]
    exact h.bareField flush form
  | field flush form hwords =>
    rw [State.entries_start]
    exact h.field flush form hwords
  | text flush noHeading noField =>
    rw [← s.entries_close] at h
    exact h.kept flush noHeading noField
  | entry indented hopen hnamed least form =>
    obtain ⟨inside, hinside⟩ := hknows.inside _ hopen
    rw [hknows.margin hinside hnamed] at least
    rw [State.entries_start]
    exact h.entry hinside hnamed ⟨indented, least, _, _, _, form⟩ form
  | further indented hopen hnamed noEntry =>
    rcases Option.eq_none_or_eq_some s.current with he | ⟨e, he⟩
    · -- no entry is open: the line is lost
      obtain ⟨inside, hinside⟩ := hknows.inside _ hopen
      have hunopened := (hknows.named _ inside hinside hnamed).2
      have hno : ¬ OpensEntry inside line := hknows.not_opensEntry hinside hnamed noEntry
      rw [State.entries_proceed_of_none (s := { s with itemIndent := some (s.margin line) }) he]
      exact h.lost ⟨indented, _, inside, hinside, hnamed,
        isUnopened_concat_iff.mpr ⟨hunopened.mp he, hno⟩⟩
    · rw [State.entries_proceed_of_current (s := { s with itemIndent := some (s.margin line) }) he]
      rw [State.entries_of_current he] at h
      refine h.appended indented ?_ fun hstray => ?_
      · exact fun tag inside hinside htag => hknows.not_opensEntry hinside htag noEntry
      · rw [hknows.of_isStray hstray] at he
        cases he
  | continued indented hplain hcurrent =>
    obtain ⟨e, he⟩ := Option.ne_none_iff_exists'.mp hcurrent
    rw [State.entries_proceed_of_current he]
    rw [State.entries_of_current he] at h
    refine h.appended indented (fun tag inside hinside htag => ?_) fun hstray => ?_
    · rw [hplain tag (hknows.openSection tag inside hinside)] at htag
      cases htag
    · exact hcurrent (hknows.of_isStray hstray)
  | described indented hplain hcurrent =>
    exact h.keptIndented indented fun tag inside hinside =>
      hplain tag (hknows.openSection tag inside hinside)

/-- A line before the first entry of its section can only be lost. -/
theorem Accounts.of_isStray {ds : List (List Char)} {es : List Entry}
    (h : Accounts IsStray (before ++ [line]) ds es) (hstray : IsStray before line) :
    Accounts IsStray before ds es := by
  obtain ⟨tag, inside, hinside, hnamed, hunopened⟩ := hstray.unopened
  have hno : ¬ OpensEntry inside line := (isUnopened_concat_iff.mp hunopened).2
  generalize hlines : before ++ [line] = lines at h
  cases h with
  | nil => simp at hlines
  | lost h _ =>
    obtain ⟨rfl, -⟩ := List.append_inj' hlines rfl
    exact h
  | blank _ hblank | blankKept _ hblank | blankAppended _ hblank =>
    obtain ⟨rfl, hline⟩ := List.append_inj' hlines rfl
    cases hline
    rw [hstray.indented.text] at hblank
    cases hblank
  | heading _ flush | plainHeading _ flush | kept _ flush | bareField _ flush | field _ flush =>
    obtain ⟨rfl, hline⟩ := List.append_inj' hlines rfl
    cases hline
    exact absurd hstray.indented flush.not_isIndented
  | keptIndented _ _ outside =>
    obtain ⟨rfl, -⟩ := List.append_inj' hlines rfl
    rw [outside tag inside hinside] at hnamed
    cases hnamed
  | appended _ _ _ hlost =>
    obtain ⟨rfl, hline⟩ := List.append_inj' hlines rfl
    cases hline
    exact absurd hstray hlost
  | entry _ within _ opens _ =>
    obtain ⟨rfl, hline⟩ := List.append_inj' hlines rfl
    cases hline
    rw [within.unique hinside] at opens
    exact absurd opens hno

theorem accounts_of_foldlM {lines : List (List Char)} {s : State}
    (h : lines.foldlM readLine {} = .ok s) :
    Knows lines s ∧ Accounts IsStray lines s.description s.entries := by
  induction lines using List.reverseRecOn generalizing s with
  | nil =>
    cases h
    exact ⟨knows_initial, .nil⟩
  | append_singleton before line ih =>
    rw [List.foldlM_append, bind_eq_ok_iff] at h
    obtain ⟨s₁, hbefore, hline⟩ := h
    obtain ⟨hknows, haccounts⟩ := ih hbefore
    have hread : Reads s₁ line s := by
      rw [List.foldlM_cons, bind_eq_ok_iff] at hline
      obtain ⟨s₂, hs₂, hnil⟩ := hline
      cases hnil
      exact reads_of_readLine hs₂
    exact ⟨hknows.step hread, haccounts.step hknows hread⟩

/-! ### Docstrings -/

/-- In a docstring that can be read, every line with text that is no heading is in the description,
in an entry, or opens an entry with its name, type and text, but for the lines of a section of named
entries in front of the first of them. -/
theorem exists_accounts {text : String} {position : Option Position} {d : Documentation}
    (h : parse text position = .ok d) :
    ∃ description entries, Accounts IsStray (linesOf text) description entries ∧
      d = documentation description entries position := by
  obtain ⟨s, hs, rfl⟩ := parse_eq_ok_iff.mp h
  exact ⟨s.description, s.entries, (accounts_of_foldlM hs).2, rfl⟩

/-- The line in front of the first entry is lost. -/
theorem exists_accounts_follows :
    parse "Counts.\n\nArgs:\n    as follows\n    size (int): in\n        bytes" none
      = .ok ⟨.docstring, "Counts.", none,
          [⟨"param", "in\nbytes", [("name", "size"), ("type", "int")]⟩], []⟩ ∧
    ∃ description entries,
      Accounts IsStray
        (linesOf "Counts.\n\nArgs:\n    as follows\n    size (int): in\n        bytes")
        description entries ∧
      (⟨.docstring, "Counts.", none,
        [⟨"param", "in\nbytes", [("name", "size"), ("type", "int")]⟩], []⟩ : Documentation)
          = documentation description entries none := by
  have h : parse "Counts.\n\nArgs:\n    as follows\n    size (int): in\n        bytes" none
      = .ok ⟨.docstring, "Counts.", none,
          [⟨"param", "in\nbytes", [("name", "size"), ("type", "int")]⟩], []⟩ := by rfl
  exact ⟨h, exists_accounts h⟩

/-- Where no line is lost, an indented line leaves a word in the description, or an entry. -/
theorem Accounts.words_or_entries {lines ds : List (List Char)} {es : List Entry}
    (h : Accounts (fun _ _ => False) lines ds es) (hline : ∃ l ∈ lines, IsIndented l) :
    ds.flatMap words ≠ [] ∨ es ≠ [] := by
  have hback : ∀ {before : List (List Char)} {l : List Char}, (∃ k ∈ before ++ [l], IsIndented k) →
      ¬ IsIndented l → ∃ k ∈ before, IsIndented k := by
    rintro before l ⟨k, hk, hindented⟩ hl
    rcases List.mem_append.mp hk with hk | hk
    · exact ⟨k, hk, hindented⟩
    · rw [List.mem_singleton.mp hk] at hindented
      exact absurd hindented hl
  have hblank : ∀ {l : List Char}, l.all isBlank = true → ¬ IsIndented l := by
    intro l hl hindented
    rw [hindented.text] at hl
    cases hl
  -- a line that is kept has a word of its own
  have hkept : ∀ {ks : List (List Char)} {l : List Char}, l.all isBlank = false →
      (ks ++ [trimRight l]).flatMap words ≠ [] := by
    intro ks l text e
    rw [List.flatMap_append, List.flatMap_singleton, words_trimRight] at e
    have hall := words_eq_nil_iff.mp (List.append_eq_nil_iff.mp e).2
    rw [text] at hall
    cases hall
  induction h with
  | nil =>
    obtain ⟨l, hl, -⟩ := hline
    cases hl
  | blank _ h ih => exact ih (hback hline (hblank h))
  | blankKept _ h ih =>
    rw [List.flatMap_append]
    exact (ih (hback hline (hblank h))).imp_left fun hne e => hne (List.append_eq_nil_iff.mp e).1
  | heading _ flush _ _ ih => exact ih (hback hline flush.not_isIndented)
  | kept _ flush _ _ => exact .inl (hkept flush.text)
  | keptIndented _ indented _ _ => exact .inl (hkept indented.text)
  | lost _ h => exact h.elim
  | blankAppended | plainHeading | appended | bareField | field | entry => exact .inr (by simp)

/-- It is not so that no line is lost: in a section of named entries, a text that is no entry is. -/
theorem not_forall_accounts :
    ¬ ∀ (text : String) (position : Option Position) (d : Documentation),
      parse text position = .ok d →
        ∃ description entries, Accounts (fun _ _ => False) (linesOf text) description entries ∧
          d = documentation description entries position := by
  intro hall
  obtain ⟨description, entries, haccounts, hd⟩ :=
    hall "Args:\n    see below" none ⟨.docstring, "", none, [], []⟩ rfl
  have hline : ∃ l ∈ linesOf "Args:\n    see below", IsIndented l :=
    ⟨"    see below".toList, by decide, by decide, by decide⟩
  have htags : entries.map Entry.toTag = [] := (congrArg Documentation.tags hd).symm
  have hdescription : joinTrimmed description = [] := by
    have hvalue : (("" : String) : Value) = (String.ofList (joinTrimmed description) : Value) :=
      congrArg Documentation.description hd
    have htext := congrArg String.toList (Scalar.text.inj (Value.scalar.inj hvalue))
    exact (htext.trans String.toList_ofList).symm
  rcases haccounts.words_or_entries hline with hwords | hentries
  · rw [← words_joinTrimmed, hdescription] at hwords
    exact hwords rfl
  · exact hentries (List.map_eq_nil_iff.mp htags)

end CodeOutline.Docstring
