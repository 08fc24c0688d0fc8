/-
CodeOutline/Proofs/Docstring.lean

Which docstrings can be read.

A docstring cannot be read exactly if one of its lines is a field whose argument consists of blanks
(`parse_eq_error_iff`): the argument is there, so its last word is looked for, but it has no word.
Whatever was read before such a line does not matter.

Nothing else can fail.  A tag is named by the section that is open or by a field, and either name is
a word; that is kept as an invariant of the lines read so far (`State.Named`).  So what is known
after the last line is the documentation (`parse_eq_ok_iff`).
-/
import CodeOutline.Proofs.Docstring.Reading
import CodeOutline.Proofs.Entity.Building

namespace CodeOutline.Docstring

open Outcome Text

/-! ### Fields with a blank argument -/

/-- A line that begins with a field, whose argument consists of at least two blanks. -/
def IsBlankField (line : List Char) : Prop :=
  ∃ name blanks rest, line = ':' :: (name ++ (blanks ++ ':' :: rest)) ∧
    name ≠ [] ∧ (∀ c ∈ name, isWordChar c = true) ∧
    2 ≤ blanks.length ∧ (∀ c ∈ blanks, isBlank c = true) ∧ ∀ c ∈ rest.head?, isBlank c = true

/-- Such a line is a field, and there are only blanks in it where its argument is looked for. -/
theorem isBlankField_iff {line : List Char} :
    IsBlankField line ↔ ∃ name inner rest, IsFieldLine line name inner rest ∧ inner ≠ [] ∧
      trimLeft inner = [] := by
  constructor
  · rintro ⟨name, blanks, rest, hline, hname, hword, hlen, hblank, hrest⟩
    refine ⟨name, blanks, rest, ⟨hline, hname, hword, ?_, ?_, fun _ => hlen, hrest⟩, ?_, ?_⟩
    · exact fun c hc => ne_colon_of_isBlank (hblank c hc)
    · exact fun c hc => hblank c (List.mem_of_mem_head? hc)
    · exact List.ne_nil_of_length_pos (by omega)
    · exact trimLeft_eq_nil_iff.mpr (List.all_eq_true.mpr hblank)
  · rintro ⟨name, inner, rest, hline, hne, hblank⟩
    refine ⟨name, inner, rest, hline.eq, hline.name_ne_nil, hline.name_word, hline.two_le hne, ?_,
      hline.rest_head⟩
    exact List.all_eq_true.mp (trimLeft_eq_nil_iff.mp hblank)

/-- Such a line is read as a field whose argument is one blank. -/
theorem exists_field?_of_isBlankField {line : List Char} (h : IsBlankField line) :
    ∃ name text, field? line = some (name, some [' '], text) := by
  obtain ⟨name, inner, rest, hline, hne, hblank⟩ := isBlankField_iff.mp h
  refine ⟨name, trimLeft rest, ?_⟩
  rw [hline.field?, argumentIn, if_neg hne, if_pos hblank]

/-- A field whose argument has no word is on such a line. -/
theorem isBlankField_of_field? {line name argument text : List Char}
    (h : field? line = some (name, some argument, text)) (hwords : words argument = []) :
    IsBlankField line := by
  obtain ⟨inner, rest, hline, hargument, -⟩ := isFieldLine_of_field? h
  have hne : inner ≠ [] := by
    rintro rfl
    cases hargument
  refine isBlankField_iff.mpr ⟨name, inner, rest, hline, hne, ?_⟩
  by_contra hsome
  -- an argument that is not blank has a word
  rw [argumentIn, if_neg hne, if_neg hsome, Option.some.injEq] at hargument
  rw [hargument] at hwords
  exact hsome (trimLeft_eq_nil_of_words hwords)

/-! ### Lines that cannot be read -/

/-- Blanks at the end of a line do not matter. -/
theorem isBlankField_trimRight {line : List Char} :
    IsBlankField (trimRight line) ↔ IsBlankField line := by
  constructor
  · -- the blanks that were cut off belong to the text of the field, if it has one
    rintro ⟨name, blanks, rest, hline, hname, hword, hlen, hblank, hrest⟩
    obtain ⟨back, hback, happend⟩ := exists_trimRight_append line
    refine ⟨name, blanks, rest ++ back, ?_, hname, hword, hlen, hblank, ?_⟩
    · rw [happend, hline]
      simp
    · intro c hc
      rcases rest with - | ⟨d, ds⟩
      · exact hback c (List.mem_of_mem_head? hc)
      · exact hrest c hc
  · rintro ⟨name, blanks, rest, rfl, hname, hword, hlen, hblank, hrest⟩
    refine ⟨name, blanks, trimRight rest, ?_, hname, hword, hlen, hblank, ?_⟩
    · have htrim := trimRight_append_cons (c := ':') (by decide) (':' :: (name ++ blanks)) rest
      simpa using htrim
    · exact fun c hc => hrest c (mem_head?_of_trimRight hc)

/-- A line without indentation cannot be read exactly if it is a field with a blank argument. -/
theorem readFlush_eq_error_iff {s : State} {line : List Char} {f : Failure}
    (h : indentation line = 0) :
    readFlush s line = .error f ↔ f = .blankArgument ∧ IsBlankField line := by
  rw [← isBlankField_trimRight, ← trim_of_indentation h]
  unfold readFlush
  split
  · next tag htag =>
    constructor
    · intro he
      cases he
    · rintro ⟨-, hb⟩
      obtain ⟨name, inner, rest, hfield, -⟩ := isBlankField_iff.mp hb
      exact absurd (header?_eq_some_iff.mp htag) (hfield.not_isHeadingLine tag)
  · split
    · next name argument text hfield =>
      simp only [bind_eq_error_iff, fieldEntry_eq_error_iff, pure_eq, reduceCtorEq, and_false,
        exists_false, or_false]
      refine and_congr_right fun _ => ⟨?_, fun hb => ?_⟩
      · rintro ⟨a, rfl, hwords⟩
        exact isBlankField_of_field? hfield hwords
      · obtain ⟨name', text', hfield'⟩ := exists_field?_of_isBlankField hb
        rw [hfield'] at hfield
        cases hfield
        exact ⟨[' '], rfl, by decide⟩
    · next hfield =>
      constructor
      · intro he
        cases he
      · rintro ⟨-, hb⟩
        obtain ⟨name', text', hfield'⟩ := exists_field?_of_isBlankField hb
        rw [hfield'] at hfield
        cases hfield

theorem readLine_eq_error_iff {s : State} {line : List Char} {f : Failure} :
    readLine s line = .error f ↔ f = .blankArgument ∧ IsBlankField line := by
  -- a line that begins with a colon is neither blank nor indented
  have hcolon : IsBlankField line → line.all isBlank = false ∧ indentation line = 0 := by
    rintro ⟨_, _, _, rfl, -⟩
    have hc : isBlank ':' = false := by decide
    simp [indentation, hc]
  unfold readLine
  split
  · next hall =>
    constructor
    · intro he
      cases he
    · rintro ⟨-, hb⟩
      rw [(hcolon hb).1] at hall
      cases hall
  · split
    · next h => exact readFlush_eq_error_iff h
    · next h =>
      constructor
      · intro he
        cases he
      · exact fun hf => absurd (hcolon hf.2).2 h

theorem read_eq_error_iff {text : String} {f : Failure} :
    read text = .error f ↔ f = .blankArgument ∧ ∃ line ∈ linesOf text, IsBlankField line := by
  have hline : ∀ s line e, readLine s line = .error e ↔ e = .blankArgument ∧ IsBlankField line :=
    fun _ _ _ => readLine_eq_error_iff
  exact foldlM_eq_error_iff hline

/-! ### Names of tags -/

/-- A name made of word characters, of which there is one at least. -/
structure IsTagWord (tag : String) : Prop where
  ne_nil : tag.toList ≠ []
  word : ∀ c ∈ tag.toList, isWordChar c = true

theorem IsTagWord.allBlank {tag : String} (h : IsTagWord tag) : allBlank tag = false := by
  obtain ⟨c, cs, hcs⟩ := List.exists_cons_of_ne_nil h.ne_nil
  have hc : isWordChar c = true := h.word c (by rw [hcs]; exact List.mem_cons_self)
  rw [Text.allBlank, hcs, List.all_cons, isBlank_of_isWordChar hc, Bool.false_and]

theorem isTagWord_of_all {tag : String} (hne : tag.toList.isEmpty = false)
    (h : tag.toList.all isWordChar = true) : IsTagWord tag :=
  ⟨List.isEmpty_eq_false_iff.mp hne, List.all_eq_true.mp h⟩

theorem isTagWord_sectionTag? {name tag : String} (h : sectionTag? name = some tag) :
    IsTagWord tag := by
  unfold sectionTag? at h
  split at h
  all_goals cases h
  all_goals exact isTagWord_of_all (by decide) (by decide)

theorem isTagWord_fieldTag {name : String} (h : IsTagWord name) : IsTagWord (fieldTag name) := by
  unfold fieldTag
  split
  all_goals first | exact isTagWord_of_all (by decide) (by decide) | exact h

theorem IsHeadingLine.isTagWord {line : List Char} {tag : String} (h : IsHeadingLine line tag) :
    IsTagWord tag := by
  obtain ⟨c, cs, -, -, -, htag⟩ := h.eq
  exact isTagWord_sectionTag? htag

theorem IsFieldLine.isTagWord {line name inner rest : List Char}
    (h : IsFieldLine line name inner rest) : IsTagWord (fieldTag (String.ofList name)) :=
  isTagWord_fieldTag ⟨by simpa using h.name_ne_nil, by simpa using h.name_word⟩

theorem tag_sectionEntry (tag : String) (name : List Char) (type : Option (List Char))
    (text : List Char) : (sectionEntry tag name type text).tag = tag := by
  unfold sectionEntry
  simp only
  split <;> rfl

/-- All entries that are known or can still be opened have words as names. -/
structure State.Named (s : State) : Prop where
  entries : ∀ e ∈ s.entries, IsTagWord e.tag
  openSection : ∀ tag ∈ s.openSection, IsTagWord tag

namespace State.Named

theorem initial : State.Named {} := ⟨by simp [State.entries], by simp⟩

theorem start {s : State} (h : s.Named) {e : Entry} (he : IsTagWord e.tag) :
    (s.start e).Named := by
  refine ⟨?_, h.openSection⟩
  rw [State.entries_start, List.forall_mem_append, List.forall_mem_singleton]
  exact ⟨h.entries, he⟩

theorem describe {s : State} (h : s.Named) (line : List Char) : (s.describe line).Named :=
  ⟨h.entries, h.openSection⟩

theorem proceed {s : State} (h : s.Named) (line : List Char) : (s.proceed line).Named := by
  refine ⟨?_, h.openSection⟩
  have hentries := h.entries
  simp only [State.proceed, State.entries, List.forall_mem_append] at hentries ⊢
  refine ⟨hentries.1, ?_⟩
  rcases e : s.current with - | entry
  · simp
  · rw [e] at hentries
    simpa [Entry.add] using hentries.2

theorem readBlank {s : State} (h : s.Named) : (readBlank s).Named := by
  unfold Docstring.readBlank
  split
  · exact h.proceed _
  · split
    · exact h.describe _
    · exact h

/-- What opens or closes a section leaves the entries as they are. -/
theorem of_entries {s t : State} (h : s.Named) (hentries : t.entries = s.entries)
    (ht : ∀ tag ∈ t.openSection, IsTagWord tag) : t.Named :=
  ⟨hentries ▸ h.entries, ht⟩

/-- A line keeps the names of entries words. -/
theorem step {s s' : State} {line : List Char} (h : s.Named) (hread : Reads s line s') :
    s'.Named := by
  cases hread with
  | blank _ => exact h.readBlank
  | heading _ form _ =>
    exact h.of_entries (State.entries_close s) (by simpa using form.isTagWord)
  | plainHeading _ form _ =>
    have hclosed : State.Named { s.close with openSection := some _, itemIndent := none } :=
      h.of_entries (State.entries_close s) (by simpa using form.isTagWord)
    exact hclosed.start form.isTagWord
  | bareField _ form =>
    have hclosed : State.Named { s with openSection := none } := h.of_entries rfl (by simp)
    exact hclosed.start form.isTagWord
  | field _ form _ =>
    have hclosed : State.Named { s with openSection := none } := h.of_entries rfl (by simp)
    exact hclosed.start form.isTagWord
  | text _ _ _ =>
    have hclosed : State.Named { s.close with openSection := none } :=
      h.of_entries (State.entries_close s) (by simp)
    exact hclosed.describe _
  | entry _ hopen _ _ _ =>
    have hmarked : State.Named { s with itemIndent := some (s.margin line) } :=
      h.of_entries rfl h.openSection
    apply hmarked.start
    rw [tag_sectionEntry]
    exact h.openSection _ hopen
  | further _ _ _ _ =>
    have hmarked : State.Named { s with itemIndent := some (s.margin line) } :=
      h.of_entries rfl h.openSection
    exact hmarked.proceed _
  | continued _ _ _ => exact h.proceed _
  | described _ _ _ => exact h.describe _

end State.Named

theorem named_of_foldlM {ls : List (List Char)} {s s' : State} (h : s.Named)
    (hs : ls.foldlM readLine s = .ok s') : s'.Named := by
  induction ls generalizing s with
  | nil =>
    cases hs
    exact h
  | cons l ls ih =>
    rw [List.foldlM_cons, bind_eq_ok_iff] at hs
    obtain ⟨s₁, hl, hls⟩ := hs
    exact ih (h.step (reads_of_readLine hl)) hls

/-! ### The documentation -/

/-- The tag that an entry is made into. -/
def Entry.toTag (e : Entry) : DocumentationTag :=
  ⟨e.tag, String.ofList (joinTrimmed e.lines),
    Metadata.ofEntries (e.attributes.map fun a => (.text a.1, .text a.2))⟩

/-- The documentation with a description and entries. -/
def documentation (description : List (List Char)) (entries : List Entry)
    (position : Option Position) : Documentation :=
  ⟨.docstring, String.ofList (joinTrimmed description), position, entries.map Entry.toTag, []⟩

theorem mapM_build {entries : List Entry} (h : ∀ e ∈ entries, IsTagWord e.tag) :
    entries.mapM Entry.build = .ok (entries.map Entry.toTag) := by
  rw [mapM_eq_ok_iff, List.forall₂_map_right_iff, List.forall₂_same]
  exact fun e he => DocumentationTag.make_eq_ok_iff.mpr ⟨(h e he).allBlank, rfl⟩

theorem parse_of_read {text : String} {s : State} (hs : read text = .ok s)
    (position : Option Position) :
    parse text position = .ok (documentation s.description s.entries position) := by
  have htags := mapM_build (named_of_foldlM State.Named.initial hs).entries
  rw [parse, hs, ok_bind, htags, mapError_ok, ok_bind, Documentation.make_eq_ok, mapError_ok]
  rfl

/-- A docstring is read as what is known after its last line. -/
theorem parse_eq_ok_iff {text : String} {position : Option Position} {d : Documentation} :
    parse text position = .ok d ↔
      ∃ s, read text = .ok s ∧ d = documentation s.description s.entries position := by
  constructor
  · intro h
    rcases e : read text with f | s
    · rw [parse, e, error_bind] at h
      cases h
    · rw [parse_of_read e] at h
      exact ⟨s, rfl, (Except.ok.inj h).symm⟩
  · rintro ⟨s, hs, rfl⟩
    exact parse_of_read hs position

/-- The tags of a docstring are made of entries with words as names. -/
theorem exists_entry_of_parse {text : String} {position : Option Position} {d : Documentation}
    (h : parse text position = .ok d) :
    ∀ t ∈ d.tags, ∃ e : Entry, IsTagWord e.tag ∧ t = e.toTag := by
  obtain ⟨s, hs, rfl⟩ := parse_eq_ok_iff.mp h
  refine List.forall_mem_map.mpr fun e he => ⟨e, ?_, rfl⟩
  exact (named_of_foldlM State.Named.initial hs).entries e he

/-! ### Docstrings that cannot be read -/

/-- A docstring cannot be read exactly if it has a line with a field whose argument is blank. -/
theorem parse_eq_error_iff {text : String} {position : Option Position} {f : Failure} :
    parse text position = .error f ↔
      f = .blankArgument ∧ ∃ line ∈ linesOf text, IsBlankField line := by
  rw [← read_eq_error_iff]
  constructor
  · intro h
    rcases e : read text with f' | s
    · rw [parse, e, error_bind] at h
      cases h
      rfl
    · -- after reading, only a blank name could be refused
      rw [parse_of_read e] at h
      cases h
  · intro h
    rw [parse, h, error_bind]

theorem exists_parse_eq_ok_iff {text : String} {position : Option Position} :
    (∃ d, parse text position = .ok d) ↔ ∀ line ∈ linesOf text, ¬ IsBlankField line := by
  constructor
  · rintro ⟨d, hd⟩ line hline hblank
    have hf : parse text position = .error .blankArgument :=
      parse_eq_error_iff.mpr ⟨rfl, line, hline, hblank⟩
    rw [hd] at hf
    cases hf
  · intro h
    rcases e : parse text position with f | d
    · obtain ⟨-, line, hline, hblank⟩ := parse_eq_error_iff.mp e
      exact absurd hblank (h line hline)
    · exact ⟨d, rfl⟩

/-- What is read off a docstring stands where the docstring does. -/
theorem position_of_parse {text : String} {position : Option Position} {d : Documentation}
    (h : parse text position = .ok d) : d.position = position := by
  obtain ⟨s, -, rfl⟩ := parse_eq_ok_iff.mp h
  rfl

end CodeOutline.Docstring
