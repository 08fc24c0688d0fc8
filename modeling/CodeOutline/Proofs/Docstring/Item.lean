/-
CodeOutline/Proofs/Docstring/Item.lean

Items of docstrings, and two ways to spell them.

An item is something with a name and maybe a type, or what is returned, and has text on its first
line and on further lines.  With sections (`Google`), each item is a line of a section about its
kind and its further lines are indented deeper.  With fields (`Sphinx`), each item is a field and
its further lines are indented.  Both are relations: what the heading of a section is called, how
deep a further line is indented and whether a section is begun anew may differ.

Every list of items has a spelling of either kind (`exists_google`, `exists_sphinx`), and its lines
can stand in a text (`isOneLine_of_google`, `isOneLine_of_sphinx`).
-/
import CodeOutline.Proofs.Docstring
import CodeOutline.Proofs.Text.Lines

namespace CodeOutline.Docstring

open Text

/-! ### Items -/

/-- What an item with a name can be. -/
inductive Kind where
  | param
  | keyword
  | attribute
  | raises
  deriving DecidableEq, Repr

namespace Kind

/-- The tag of a kind. -/
def tag : Kind → String
  | .param => "param"
  | .keyword => "keyword"
  | .attribute => "attribute"
  | .raises => "raises"

/-- The field of a kind. -/
def field : Kind → List Char
  | .param => "param".toList
  | .keyword => "keyword".toList
  | .attribute => "ivar".toList
  | .raises => "raises".toList

@[simp] theorem isNamedSection_tag (k : Kind) : isNamedSection k.tag = true := by
  cases k <;> decide

@[simp] theorem fieldTag_field (k : Kind) : fieldTag (String.ofList k.field) = k.tag := by
  cases k <;> rfl

/-- A heading of the sections of a kind. -/
def heading : Kind → List Char
  | .param => "Args:".toList
  | .keyword => "Keyword Args:".toList
  | .attribute => "Attributes:".toList
  | .raises => "Raises:".toList

theorem isWordChar_of_mem_field (k : Kind) : ∀ c ∈ k.field, isWordChar c = true := by
  have hall : k.field.all isWordChar = true := by
    cases k <;> decide +kernel
  exact List.all_eq_true.mp hall

theorem field_ne_nil (k : Kind) : k.field ≠ [] := by
  cases k <;> decide

end Kind

/-- What an item is about: something with a name and the words of a type, or what is returned. -/
inductive Head where
  | named (kind : Kind) (name : List Char) (type : List (List Char))
  | result

/-- What an item is about, the text on its first line, and its further lines. -/
structure Item where
  head : Head
  first : List Char
  more : List (List Char)

namespace Head

/-- The tag of an item. -/
def tag : Head → String
  | .named kind _ _ => kind.tag
  | .result => "return"

/-- The attributes of an item. -/
def attributes : Head → List (String × String)
  | .named _ name type => nameAndType type name
  | .result => []

/-- The kind of an item with a name. -/
def kind? : Head → Option Kind
  | .named kind _ _ => some kind
  | .result => none

end Head

/-- The entry that an item is read as. -/
def Item.entry (i : Item) : Entry := ⟨i.head.tag, i.head.attributes, i.first :: i.more⟩

/-- The tag that an item is read as. -/
def Item.toTag (i : Item) : DocumentationTag :=
  ⟨i.head.tag, String.ofList (joinTrimmed (i.first :: i.more)),
    i.head.attributes.map fun a => (a.1, (a.2 : Value))⟩

theorem Item.toTag_entry (i : Item) : i.entry.toTag = i.toTag := by
  obtain ⟨head, first, more⟩ := i
  rcases head with ⟨kind, name, _ | ⟨word, type⟩⟩ | -
  · rfl
  · rfl
  · rfl

/-! ### What can be written -/

/-- Text that can stand on a line as it is. -/
def IsOneLine (cs : List Char) : Prop := ∀ c ∈ cs, isLineBreak c = false ∧ c ≠ '\t'

/-- A trimmed line of text. -/
structure IsPlain (text : List Char) : Prop where
  trimmed : trim text = text
  oneLine : IsOneLine text

/-- A line of a description: text that is neither a heading nor a field. -/
structure IsDescriptionLine (line : List Char) : Prop where
  plain : IsPlain line
  not_heading : ∀ tag, ¬ IsHeadingLine line tag
  not_field : ∀ name inner rest, ¬ IsFieldLine line name inner rest

/-- A name of word characters and dots. -/
structure IsName (name : List Char) : Prop where
  ne_nil : name ≠ []
  isNamePart : ∀ c ∈ name, isWordChar c = true ∨ c = '.'

theorem IsName.isBlank {name : List Char} (h : IsName name) : ∀ c ∈ name, isBlank c = false := by
  intro c hc
  rcases h.isNamePart c hc with hword | rfl
  · exact isBlank_of_isWordChar hword
  · decide

theorem IsName.ne_colon {name : List Char} (h : IsName name) : ∀ c ∈ name, c ≠ ':' := by
  rintro c hc rfl
  rcases h.isNamePart _ hc with hword | hdot
  · have hcolon : isWordChar ':' = false := by decide
    rw [hcolon] at hword
    cases hword
  · exact absurd hdot (by decide)

/-- A word of a type, without blanks, colons and brackets. -/
structure IsTypeWord (word : List Char) : Prop where
  ne_nil : word ≠ []
  isBlank : ∀ c ∈ word, isBlank c = false
  ne : ∀ c ∈ word, c ≠ ':' ∧ c ≠ '(' ∧ c ≠ ')'

/-- What an item can be about. -/
def Head.IsWritable : Head → Prop
  | .named _ name type => IsName name ∧ ∀ w ∈ type, IsTypeWord w
  | .result => True

/-- An item that can be written. -/
structure Item.IsWritable (i : Item) : Prop where
  head : i.head.IsWritable
  first : IsPlain i.first
  more : ∀ l ∈ i.more, IsPlain l

/-! ### What can be written is decided -/

instance (text : List Char) : Decidable (IsPlain text) :=
  decidable_of_iff
    (trim text = text ∧ (text.all fun c => !isLineBreak c && c != '\t') = true) (by
      constructor
      · rintro ⟨htrim, hall⟩
        exact ⟨htrim, fun c hc => by simpa using List.all_eq_true.mp hall c hc⟩
      · intro h
        exact ⟨h.trimmed, List.all_eq_true.mpr fun c hc => by simpa using h.oneLine c hc⟩)

instance (line : List Char) : Decidable (IsDescriptionLine line) :=
  decidable_of_iff (IsPlain line ∧ header? line = none ∧ field? line = none) (by
    rw [header?_eq_none_iff, field?_eq_none_iff]
    exact ⟨fun ⟨hp, hh, hf⟩ => ⟨hp, hh, hf⟩, fun h => ⟨h.plain, h.not_heading, h.not_field⟩⟩)

instance (name : List Char) : Decidable (IsName name) :=
  decidable_of_iff (name ≠ [] ∧ (name.all fun c => isWordChar c || c == '.') = true) (by
    constructor
    · rintro ⟨hne, hall⟩
      exact ⟨hne, fun c hc => by simpa using List.all_eq_true.mp hall c hc⟩
    · intro h
      exact ⟨h.ne_nil, List.all_eq_true.mpr fun c hc => by simpa using h.isNamePart c hc⟩)

instance (word : List Char) : Decidable (IsTypeWord word) :=
  decidable_of_iff (word ≠ [] ∧
      (word.all fun c => !isBlank c && (c != ':' && (c != '(' && c != ')'))) = true) (by
    constructor
    · rintro ⟨hne, hall⟩
      have hc : ∀ c ∈ word, isBlank c = false ∧ c ≠ ':' ∧ c ≠ '(' ∧ c ≠ ')' :=
        fun c hc => by simpa using List.all_eq_true.mp hall c hc
      exact ⟨hne, fun c h => (hc c h).1, fun c h => (hc c h).2⟩
    · intro h
      refine ⟨h.ne_nil, List.all_eq_true.mpr fun c hc => ?_⟩
      simpa using ⟨h.isBlank c hc, h.ne c hc⟩)

instance (h : Head) : Decidable h.IsWritable :=
  match h with
  | .named _ name type => inferInstanceAs (Decidable (IsName name ∧ ∀ w ∈ type, IsTypeWord w))
  | .result => inferInstanceAs (Decidable True)

instance (i : Item) : Decidable i.IsWritable :=
  decidable_of_iff (i.head.IsWritable ∧ IsPlain i.first ∧ ∀ l ∈ i.more, IsPlain l)
    ⟨fun ⟨hh, hf, hm⟩ => ⟨hh, hf, hm⟩, fun h => ⟨h.head, h.first, h.more⟩⟩

/-! ### The two spellings -/

/-- Text behind a colon; no space is needed in front of no text. -/
def IsBehind (text rest : List Char) : Prop := rest = ' ' :: text ∨ (text = [] ∧ rest = [])

/-- A further line of an item, indented by more than `n` spaces unless it is empty. -/
def Continues (n : Nat) (text line : List Char) : Prop :=
  ∃ k, line = List.replicate k ' ' ++ text ∧ (text = [] ∨ n < k)

/-- A type in brackets behind a name. -/
def brackets (type : List (List Char)) : List Char :=
  if type = [] then [] else ' ' :: '(' :: ([' '].intercalate type ++ [')'])

/-- The first line of an item in a section. -/
inductive GoogleOpening : Item → List Char → Prop
  | named {kind name type first more rest} (h : IsBehind first rest) :
      GoogleOpening ⟨.named kind name type, first, more⟩
        (List.replicate 4 ' ' ++ (name ++ brackets type ++ ':' :: rest))
  | result {first more} : GoogleOpening ⟨.result, first, more⟩ (List.replicate 4 ' ' ++ first)

/-- Items in sections, where items of the kind `o` may go on with the section in front of them. -/
inductive Google : Option Kind → List Item → List (List Char) → Prop
  | nil {o} : Google o [] []
  | heading {o i items heading opening more rest} (hheading : IsHeadingLine heading i.head.tag)
      (hopening : GoogleOpening i opening) (hmore : List.Forall₂ (Continues 4) i.more more)
      (hrest : Google i.head.kind? items rest) :
      Google o (i :: items) (heading :: opening :: more ++ rest)
  | further {k i items opening more rest} (hkind : i.head.kind? = some k)
      (hopening : GoogleOpening i opening) (hmore : List.Forall₂ (Continues 4) i.more more)
      (hrest : Google (some k) items rest) :
      Google (some k) (i :: items) (opening :: more ++ rest)

/-- The words of a type and a name between a field and its colon. -/
def argumentOf (type : List (List Char)) (name : List Char) : List Char :=
  ' ' :: [' '].intercalate (type ++ [name])

/-- The first line of an item as a field. -/
inductive SphinxOpening : Item → List Char → Prop
  | named {kind : Kind} {name type first more rest} (h : IsBehind first rest) :
      SphinxOpening ⟨.named kind name type, first, more⟩
        (':' :: (kind.field ++ argumentOf type name) ++ ':' :: rest)
  | result {first more rest} (h : IsBehind first rest) :
      SphinxOpening ⟨.result, first, more⟩ (':' :: "returns".toList ++ ':' :: rest)

/-- Items as fields. -/
inductive Sphinx : List Item → List (List Char) → Prop
  | nil : Sphinx [] []
  | cons {i items opening more rest} (hopening : SphinxOpening i opening)
      (hmore : List.Forall₂ (Continues 0) i.more more) (hrest : Sphinx items rest) :
      Sphinx (i :: items) (opening :: more ++ rest)

/-- Lines set one below the other. -/
def textOf (ls : List (List Char)) : String := String.ofList (['\n'].intercalate ls)

/-! ### Both spellings exist -/

/-- A heading of the section of an item. -/
def Head.heading : Head → List Char
  | .named kind _ _ => kind.heading
  | .result => "Returns:".toList

theorem Head.isHeadingLine_heading (h : Head) : IsHeadingLine h.heading h.tag := by
  have hresult : header? "Returns:".toList = some "return" := by decide +kernel
  have hnamed : ∀ kind : Kind, header? kind.heading = some kind.tag := by
    intro kind
    cases kind <;> decide +kernel
  rw [← header?_eq_some_iff]
  cases h with
  | named kind name type => exact hnamed kind
  | result => exact hresult

theorem exists_continues (n : Nat) (texts : List (List Char)) :
    ∃ lines, List.Forall₂ (Continues n) texts lines := by
  refine ⟨texts.map (List.replicate (n + 4) ' ' ++ ·), ?_⟩
  rw [List.forall₂_map_right_iff, List.forall₂_same]
  exact fun t _ => ⟨n + 4, rfl, .inr (by omega)⟩

theorem exists_google (o : Option Kind) (items : List Item) : ∃ lines, Google o items lines := by
  induction items generalizing o with
  | nil => exact ⟨[], .nil⟩
  | cons i items ih =>
    obtain ⟨more, hmore⟩ := exists_continues 4 i.more
    obtain ⟨rest, hrest⟩ := ih i.head.kind?
    obtain ⟨opening, hopening⟩ : ∃ opening, GoogleOpening i opening := by
      obtain ⟨head, first, more⟩ := i
      cases head with
      | named kind name type => exact ⟨_, .named (.inl rfl)⟩
      | result => exact ⟨_, .result⟩
    exact ⟨_, .heading i.head.isHeadingLine_heading hopening hmore hrest⟩

theorem exists_sphinx (items : List Item) : ∃ lines, Sphinx items lines := by
  induction items with
  | nil => exact ⟨[], .nil⟩
  | cons i items ih =>
    obtain ⟨more, hmore⟩ := exists_continues 0 i.more
    obtain ⟨rest, hrest⟩ := ih
    obtain ⟨opening, hopening⟩ : ∃ opening, SphinxOpening i opening := by
      obtain ⟨head, first, more⟩ := i
      cases head with
      | named kind name type => exact ⟨_, .named (.inl rfl)⟩
      | result => exact ⟨_, .result (.inl rfl)⟩
    exact ⟨_, .cons hopening hmore hrest⟩

/-! ### Lines of a text -/

theorem isOneLine_nil : IsOneLine [] := fun _ hc => absurd hc List.not_mem_nil

theorem IsOneLine.append {a b : List Char} (ha : IsOneLine a) (hb : IsOneLine b) :
    IsOneLine (a ++ b) := List.forall_mem_append.mpr ⟨ha, hb⟩

theorem isOneLine_of_not_isBlank {cs : List Char} (h : ∀ c ∈ cs, isBlank c = false) :
    IsOneLine cs := by
  intro c hc
  refine ⟨isUnbroken_of_not_isBlank h c hc, ?_⟩
  rintro rfl
  exact absurd (h _ hc) (by decide)

theorem isOneLine_space : IsOneLine [' '] := List.forall_mem_singleton.mpr (by decide)

theorem isOneLine_replicate (k : Nat) : IsOneLine (List.replicate k ' ') := by
  intro c hc
  rw [(List.mem_replicate.mp hc).2]
  decide

/-- Words that can stand on a line can do so with spaces between them. -/
theorem isOneLine_intercalate {ws : List (List Char)} (h : ∀ w ∈ ws, ∀ c ∈ w, isBlank c = false) :
    IsOneLine ([' '].intercalate ws) :=
  forall_mem_intercalate (by decide) fun w hw => isOneLine_of_not_isBlank (h w hw)

theorem IsHeadingLine.isOneLine {line : List Char} {tag : String} (h : IsHeadingLine line tag) :
    IsOneLine line := by
  obtain ⟨c, cs, rfl, hc, hcs, -⟩ := h.eq
  have hletter : ∀ d : Char, d.isAlpha = true → isLineBreak d = false ∧ d ≠ '\t' := by
    intro d hd
    have hone : IsOneLine [d] :=
      isOneLine_of_not_isBlank (List.forall_mem_singleton.mpr (isBlank_of_isAlpha hd))
    exact hone d List.mem_cons_self
  refine List.forall_mem_cons.mpr ⟨hletter c hc, List.forall_mem_append.mpr ⟨fun d hd => ?_, ?_⟩⟩
  · rcases hcs d hd with halpha | rfl
    · exact hletter d halpha
    · decide
  · exact List.forall_mem_singleton.mpr (by decide)

theorem isOneLine_behind {text rest : List Char} (htext : IsOneLine text) (h : IsBehind text rest) :
    IsOneLine (':' :: rest) := by
  have hcolon : IsOneLine [':'] := List.forall_mem_singleton.mpr (by decide)
  rcases h with rfl | ⟨-, rfl⟩
  · exact hcolon.append (isOneLine_space.append htext)
  · exact hcolon

theorem isOneLine_of_googleOpening {i : Item} {opening : List Char} (hi : i.IsWritable)
    (h : GoogleOpening i opening) : IsOneLine opening := by
  cases h with
  | @named kind name type _ _ _ hrest =>
    obtain ⟨hname, htype⟩ := hi.head
    have hwords : IsOneLine ([' '].intercalate type) :=
      isOneLine_intercalate fun w hw => (htype w hw).isBlank
    have hbrackets : IsOneLine (brackets type) := by
      unfold brackets
      split
      · exact isOneLine_nil
      · have hopen : IsOneLine ['('] := List.forall_mem_singleton.mpr (by decide)
        have hclose : IsOneLine [')'] := List.forall_mem_singleton.mpr (by decide)
        exact isOneLine_space.append (hopen.append (hwords.append hclose))
    have hname' : IsOneLine name := isOneLine_of_not_isBlank hname.isBlank
    exact (isOneLine_replicate 4).append
      ((hname'.append hbrackets).append (isOneLine_behind hi.first.oneLine hrest))
  | result => exact (isOneLine_replicate 4).append hi.first.oneLine

theorem isWordChar_of_mem_returns : ∀ c ∈ "returns".toList, isWordChar c = true := by
  have hall : "returns".toList.all isWordChar = true := by decide +kernel
  exact List.all_eq_true.mp hall

theorem isOneLine_of_sphinxOpening {i : Item} {opening : List Char} (hi : i.IsWritable)
    (h : SphinxOpening i opening) : IsOneLine opening := by
  have hcolon : IsOneLine [':'] := List.forall_mem_singleton.mpr (by decide)
  cases h with
  | @named kind name type _ _ _ hrest =>
    obtain ⟨hname, htype⟩ := hi.head
    have hfield : IsOneLine kind.field :=
      isOneLine_of_not_isBlank fun c hc => isBlank_of_isWordChar (kind.isWordChar_of_mem_field c hc)
    have hwords : IsOneLine ([' '].intercalate (type ++ [name])) := by
      refine isOneLine_intercalate ?_
      rw [List.forall_mem_append, List.forall_mem_singleton]
      exact ⟨fun w hw => (htype w hw).isBlank, hname.isBlank⟩
    exact (hcolon.append (hfield.append (isOneLine_space.append hwords))).append
      (isOneLine_behind hi.first.oneLine hrest)
  | result hrest =>
    have hfield : IsOneLine "returns".toList :=
      isOneLine_of_not_isBlank fun c hc => isBlank_of_isWordChar (isWordChar_of_mem_returns c hc)
    exact (hcolon.append hfield).append (isOneLine_behind hi.first.oneLine hrest)

theorem isOneLine_of_continues {n : Nat} {texts more : List (List Char)}
    (htexts : ∀ t ∈ texts, IsPlain t) (h : List.Forall₂ (Continues n) texts more) :
    ∀ l ∈ more, IsOneLine l := by
  induction h with
  | nil => exact fun l hl => absurd hl List.not_mem_nil
  | cons hline _ ih =>
    obtain ⟨htext, htexts⟩ := List.forall_mem_cons.mp htexts
    obtain ⟨k, rfl, -⟩ := hline
    exact List.forall_mem_cons.mpr ⟨(isOneLine_replicate k).append htext.oneLine, ih htexts⟩

theorem isOneLine_of_google {o : Option Kind} {items : List Item} {lines : List (List Char)}
    (h : Google o items lines) (hitems : ∀ i ∈ items, i.IsWritable) : ∀ l ∈ lines, IsOneLine l := by
  induction h with
  | nil => exact fun l hl => absurd hl List.not_mem_nil
  | heading hheading hopening hmore _ ih =>
    obtain ⟨hi, hrest⟩ := List.forall_mem_cons.mp hitems
    exact List.forall_mem_append.mpr ⟨List.forall_mem_cons.mpr ⟨hheading.isOneLine,
      List.forall_mem_cons.mpr ⟨isOneLine_of_googleOpening hi hopening,
        isOneLine_of_continues hi.more hmore⟩⟩, ih hrest⟩
  | further _ hopening hmore _ ih =>
    obtain ⟨hi, hrest⟩ := List.forall_mem_cons.mp hitems
    exact List.forall_mem_append.mpr ⟨List.forall_mem_cons.mpr
      ⟨isOneLine_of_googleOpening hi hopening, isOneLine_of_continues hi.more hmore⟩, ih hrest⟩

theorem isOneLine_of_sphinx {items : List Item} {lines : List (List Char)} (h : Sphinx items lines)
    (hitems : ∀ i ∈ items, i.IsWritable) : ∀ l ∈ lines, IsOneLine l := by
  induction h with
  | nil => exact fun l hl => absurd hl List.not_mem_nil
  | cons hopening hmore _ ih =>
    obtain ⟨hi, hrest⟩ := List.forall_mem_cons.mp hitems
    exact List.forall_mem_append.mpr ⟨List.forall_mem_cons.mpr
      ⟨isOneLine_of_sphinxOpening hi hopening, isOneLine_of_continues hi.more hmore⟩, ih hrest⟩

end CodeOutline.Docstring
