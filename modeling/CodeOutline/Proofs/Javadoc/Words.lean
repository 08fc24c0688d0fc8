/-
CodeOutline/Proofs/Javadoc/Words.lean

Reading a comment keeps its words.

A comment has a result whatever it holds, and the words of the result are the words of its cleaned
lines: those of the description, then for each tag its name behind an at sign, what it names, and
its text (`exists_parse_words`).  Nothing is lost, written twice or moved.

The words are followed through the three steps of reading: lines are handed out to the description
and the tags (`words_group`), the lines of a part are joined and trimmed (`words_joinTrimmed`), and
a tag may set its first word apart (`words_splitFirstWord`).  A line that opens a tag is an at
sign, a name and, behind a blank, the first text of the tag; `blockTag?_eq_some_iff` says that the
reader finds exactly these lines.
-/
import CodeOutline.Proofs.Java.Comment
import CodeOutline.Proofs.Javadoc.Cleaning
import CodeOutline.Proofs.Metadata.Lookup

namespace CodeOutline.Javadoc

open Outcome Text

/-! ### Lines that open a tag -/

/-- A letter, then word characters, dots and hyphens. -/
def IsTagName (name : List Char) : Prop :=
  ∃ c cs, name = c :: cs ∧ c.isAlpha = true ∧
    ∀ d ∈ cs, isWordChar d = true ∨ d = '.' ∨ d = '-'

/-- A line that begins with an at sign and a name; if it goes on, then with a blank. -/
structure IsTagLine (line name rest : List Char) : Prop where
  eq : line = '@' :: (name ++ rest)
  name : IsTagName name
  rest : ∀ c ∈ rest.head?, isBlank c = true

theorem IsTagName.ne_nil {name : List Char} (h : IsTagName name) : name ≠ [] := by
  obtain ⟨c, cs, rfl, -⟩ := h
  exact List.cons_ne_nil c cs

theorem IsTagName.isBlank {name : List Char} (h : IsTagName name) :
    ∀ c ∈ name, isBlank c = false := by
  obtain ⟨c, cs, rfl, hc, hcs⟩ := h
  intro d hd
  rcases List.mem_cons.mp hd with rfl | hd
  · exact isBlank_of_isAlpha hc
  · rcases hcs d hd with hword | rfl | rfl
    · exact isBlank_of_isWordChar hword
    · decide
    · decide

/-- The reader finds the lines that open a tag. -/
theorem blockTag?_eq_some_iff {line name text : List Char} :
    blockTag? line = some (name, text) ↔
      ∃ rest, IsTagLine line name rest ∧ text = trimLeft rest := by
  have hpart : ∀ d : Char, (isWordChar d || d == '.' || d == '-') = true ↔
      isWordChar d = true ∨ d = '.' ∨ d = '-' := by
    intro d
    simp [or_assoc]
  constructor
  · intro h
    unfold blockTag? at h
    split at h
    · next c cs =>
      simp only at h
      split at h
      · next hc =>
        have hcs := List.takeWhile_append_dropWhile
          (p := fun d => isWordChar d || d == '.' || d == '-') (l := cs)
        have hname : IsTagName (c :: cs.takeWhile fun d => isWordChar d || d == '.' || d == '-') :=
          ⟨c, _, rfl, hc, fun d hd =>
            (hpart d).mp (List.all_eq_true.mp List.all_takeWhile d hd)⟩
        split at h
        · -- the name goes to the end of the line
          next hdrop =>
          rw [hdrop, List.append_nil] at hcs
          cases h
          refine ⟨[], ⟨?_, hname, by simp⟩, rfl⟩
          rw [List.append_nil, hcs]
        · next d rest hdrop =>
          split at h
          · next hd =>
            rw [hdrop] at hcs
            cases h
            refine ⟨d :: rest, ⟨?_, hname, by simpa using hd⟩, rfl⟩
            rw [List.cons_append, hcs]
          · cases h
      · cases h
    · cases h
  · rintro ⟨rest, ⟨rfl, ⟨c, cs, rfl, hc, hcs⟩, hrest⟩, rfl⟩
    have hstop : ∀ d ∈ rest.head?, (isWordChar d || d == '.' || d == '-') = false := by
      intro d hd
      have hblank := hrest d hd
      rw [Bool.eq_false_iff, Ne, hpart]
      rintro (hword | rfl | rfl)
      · rw [isBlank_of_isWordChar hword] at hblank
        cases hblank
      · exact absurd hblank (by decide)
      · exact absurd hblank (by decide)
    obtain ⟨htake, hdrop⟩ := takeWhile_append_of_head (fun d hd => (hpart d).mpr (hcs d hd)) hstop
    simp only [List.cons_append, blockTag?, hc, if_true, htake, hdrop]
    rcases rest with - | ⟨d, rest⟩
    · rfl
    · have hd : isBlank d = true := hrest d rfl
      simp only [hd, if_true]

theorem words_of_isTagLine {line name rest : List Char} (h : IsTagLine line name rest) :
    words line = ('@' :: name) :: words rest := by
  have hword : ∀ c ∈ '@' :: name, isBlank c = false :=
    List.forall_mem_cons.mpr ⟨by decide, h.name.isBlank⟩
  rw [h.eq]
  exact words_append_of_head (List.cons_ne_nil _ _) hword h.rest

/-! ### Words of the parts -/

/-- The words of a tag as a comment has them. -/
def partWords (t : List Char × List (List Char)) : List (List Char) :=
  ('@' :: t.1) :: t.2.flatMap words

/-- Every line goes to the description or to a tag, in order. -/
theorem words_group (ls : List (List Char)) :
    (group ls).1.flatMap words ++ (group ls).2.flatMap partWords = ls.flatMap words := by
  induction ls with
  | nil => rfl
  | cons l ls ih =>
    rw [group]
    rcases e : blockTag? l with - | ⟨name, text⟩
    · show words l ++ (group ls).1.flatMap words ++ (group ls).2.flatMap partWords = _
      rw [List.append_assoc, ih, List.flatMap_cons]
    · -- the line opens a tag, and the lines that are read already go on with it
      obtain ⟨rest, hline, rfl⟩ := blockTag?_eq_some_iff.mp e
      show ('@' :: name) :: (words (trimLeft rest) ++ (group ls).1.flatMap words)
        ++ (group ls).2.flatMap partWords = _
      rw [List.flatMap_cons, words_of_isTagLine hline, words_trimLeft, List.cons_append,
        List.append_assoc, ih, List.cons_append]

/-- The first word of a text is a run of characters that are no blanks, and the rest is trimmed. -/
theorem exists_of_splitFirstWord {cs word rest : List Char}
    (h : splitFirstWord cs = some (word, rest)) :
    ∃ more, trimLeft cs = word ++ more ∧ rest = trim more ∧ word ≠ [] ∧
      (∀ c ∈ word, isBlank c = false) ∧ ∀ c ∈ more.head?, isBlank c = true := by
  unfold splitFirstWord at h
  split at h
  · cases h
  · next c ds e =>
    simp only [Option.some.injEq, Prod.mk.injEq] at h
    obtain ⟨rfl, rfl⟩ := h
    have hc : isBlank c = false := isBlank_of_head_trimLeft c (by rw [e]; rfl)
    refine ⟨_, ?_, rfl, List.cons_ne_nil _ _, ?_, ?_⟩
    · rw [e, List.cons_append, List.takeWhile_append_dropWhile]
    · refine List.forall_mem_cons.mpr ⟨hc, fun d hd => ?_⟩
      simpa using List.all_eq_true.mp List.all_takeWhile d hd
    · intro d hd
      have hhead := List.head?_dropWhile_not (fun d => !isBlank d) ds
      rw [Option.mem_def.mp hd] at hhead
      simpa using hhead

theorem words_splitFirstWord {cs word rest : List Char}
    (h : splitFirstWord cs = some (word, rest)) : words cs = word :: words rest := by
  obtain ⟨more, hcs, rfl, hne, hword, hmore⟩ := exists_of_splitFirstWord h
  rw [words_trim, ← words_trimLeft cs, hcs, words_append_of_head hne hword hmore]

theorem splitFirstWord_eq_none {cs : List Char} (h : splitFirstWord cs = none) :
    words cs = [] := by
  unfold splitFirstWord at h
  split at h
  · next e => rw [← words_trimLeft, e, words_nil]
  · cases h

end CodeOutline.Javadoc

namespace CodeOutline

open Text

/-! ### Words of documentation -/

/-- The words of a value that is a text. -/
def Value.words (v : Value) : List (List Char) :=
  v.text?.toList.flatMap fun s => Text.words s.toList

/-- The words of a tag: its name behind an at sign, what it names as one word, and its text. -/
def DocumentationTag.words (t : DocumentationTag) : List (List Char) :=
  (t.name.text?.toList.map fun name => '@' :: name.toList) ++
    (t.attributes.text? "name").toList.map String.toList ++ t.value.words

/-- The words of the description, then those of the tags. -/
def Documentation.words (d : Documentation) : List (List Char) :=
  d.description.words ++ d.tags.flatMap DocumentationTag.words

@[simp] theorem Value.words_text (cs : List Char) :
    (Value.text (String.ofList cs)).words = Text.words cs := by
  simp [Value.words, Value.text?]

end CodeOutline

namespace CodeOutline.Javadoc

open Outcome Text

/-- A tag has the words of its name and its content. -/
theorem words_of_tag {name content : List Char} {t : DocumentationTag}
    (h : tag (String.ofList name) (String.ofList content) = .ok t) :
    t.words = ('@' :: name) :: words content := by
  unfold tag at h
  split at h
  · split at h
    · next e =>
      obtain ⟨-, rfl⟩ := DocumentationTag.make_eq_ok_iff.mp h
      have hwords : words content = [] := splitFirstWord_eq_none (by simpa using e)
      rw [hwords]
      simp [DocumentationTag.words, Value.words, Value.text?, Metadata.text?,
        Metadata.get?_ofEntries_of_notMem, Metadata.textKeys]
    · next word rest e =>
      -- the first word stands under its own key, and the others are the text
      obtain ⟨-, rfl⟩ := DocumentationTag.make_eq_ok_iff.mp h
      have hwords : words content = word :: words rest := words_splitFirstWord (by simpa using e)
      have hnamed : Metadata.get?
          (Metadata.ofEntries [(.text "name", Value.text (String.ofList word))]) "name"
            = some (Value.text (String.ofList word)) :=
        Metadata.get?_ofEntries_cons_of_notMem (.text "name") (by simp [Metadata.textKeys])
      rw [hwords]
      simp [DocumentationTag.words, Value.words, Value.text?, Metadata.text?, hnamed]
  · obtain ⟨-, rfl⟩ := DocumentationTag.make_eq_ok_iff.mp h
    simp [DocumentationTag.words, Value.words, Value.text?, Metadata.text?,
      Metadata.get?_ofEntries_of_notMem, Metadata.textKeys]

theorem words_of_tags {groups : List (List Char × List (List Char))}
    {tags : List DocumentationTag}
    (h : List.Forall₂
      (fun t y => tag (String.ofList t.1) (String.ofList (joinTrimmed t.2)) = .ok y) groups tags) :
    tags.flatMap DocumentationTag.words = groups.flatMap partWords := by
  induction h with
  | nil => rfl
  | cons htag _ ih =>
    rw [List.flatMap_cons, List.flatMap_cons, ih, words_of_tag htag, words_joinTrimmed]
    rfl

/-- A comment can always be read, and what is read has the words of the cleaned lines, which in turn
are the lines between the delimiters without what is around their text. -/
theorem exists_parse_words (comment : String) (position : Option Position) :
    ∃ d inner, parse comment position = .ok d ∧ IsBody comment.toList inner ∧
      Cleaned false (splitLines inner) (cleanLines comment) ∧
      d.words = (cleanLines comment).flatMap words := by
  obtain ⟨d, hd⟩ := exists_parse comment position
  refine ⟨d, body comment.toList, hd, isBody_body _, cleaned_cleanFrom false _, ?_⟩
  simp only [parse, bind_eq_ok_iff, Documentation.make_eq_ok, Except.ok.injEq] at hd
  obtain ⟨tags, htags, rfl⟩ := hd
  have hdescription : Value.words (String.ofList (joinTrimmed (group (cleanLines comment)).1))
      = (group (cleanLines comment)).1.flatMap words := by
    rw [Value.words_text, words_joinTrimmed]
  show Value.words _ ++ tags.flatMap DocumentationTag.words = _
  rw [hdescription, words_of_tags (mapM_eq_ok_iff.mp htags), words_group]

end CodeOutline.Javadoc
