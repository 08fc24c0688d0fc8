/-
CodeOutline/Proofs/Docstring/Spelling.lean

Both spellings of a docstring say the same.

A description and items that are spelled with sections or with fields are read back as the
description and the tags of the items (`parse_spellings`).

The text of an item is not restricted to what looks like text: behind the first line of an item,
only its indentation decides what a line is, so it may hold colons and brackets or have the form of
an entry, a heading or a field.  Both readings go item by item: the line that opens an item
(`reads_google`, `reads_sphinx`), the lines that go on with it (`read_continued`), and an induction
on the spelling (`readsItems_google`, `readsItems_sphinx`).
-/
import CodeOutline.Proofs.Docstring.Item

namespace CodeOutline.Docstring

open Outcome Text

/-! ### Further lines of an item -/

theorem continues_zero {n : Nat} {text line : List Char} (h : Continues n text line) :
    Continues 0 text line := by
  obtain ⟨k, hline, hk⟩ := h
  exact ⟨k, hline, hk.imp_right fun hk => by omega⟩

/-- A line with text behind spaces. -/
theorem isIndented_replicate {text : List Char} (hhead : ∀ c ∈ text.head?, isBlank c = false)
    (hne : text ≠ []) {k : Nat} (hk : 0 < k) :
    IsIndented (List.replicate k ' ' ++ text) ∧ indentation (List.replicate k ' ' ++ text) = k ∧
      trim (List.replicate k ' ' ++ text) = trim text := by
  have hindent := indentation_replicate_append hhead k
  obtain ⟨c, cs, rfl⟩ := List.exists_cons_of_ne_nil hne
  have hc : isBlank c = false := hhead c rfl
  refine ⟨⟨?_, ?_⟩, hindent, ?_⟩
  · rw [List.all_append, List.all_cons, hc, Bool.false_and, Bool.and_false]
  · rw [hindent]
    omega
  · rw [trim_append_of_blank isBlank_of_mem_replicate]

/-- A line that is indented deeper than the entries of the section goes on with the entry that is
open, whatever its form. -/
theorem reads_deeper {s : State} {n : Nat} {line : List Char} (hindented : IsIndented line)
    (hcurrent : s.current ≠ none)
    (hmargin : ∀ tag ∈ s.openSection, isNamedSection tag = true → s.itemIndent = some n)
    (hn : n < indentation line) : Reads s line (s.proceed (trim line)) := by
  by_cases hnamed : ∃ tag ∈ s.openSection, isNamedSection tag = true
  · obtain ⟨tag, hopen, htag⟩ := hnamed
    have hitem : s.itemIndent = some n := hmargin tag hopen htag
    have hmargin' : s.margin line = n := by
      rw [State.margin, hitem, Option.getD_some]
    have hmarked : { s with itemIndent := some (s.margin line) } = s := by
      rw [hmargin', ← hitem]
    have hread := Reads.further hindented hopen htag fun least => by
      rw [hmargin'] at least
      omega
    rwa [hmarked] at hread
  · refine .continued hindented (fun tag htag => ?_) hcurrent
    rw [Bool.eq_false_iff]
    exact fun h => hnamed ⟨tag, htag, h⟩

/-- A further line of an item goes on with it. -/
theorem readLine_continued {s : State} {e : Entry} {n : Nat} {text line : List Char}
    (hcurrent : s.current = some e)
    (hmargin : ∀ tag ∈ s.openSection, isNamedSection tag = true → s.itemIndent = some n)
    (htext : trim text = text) (hline : Continues n text line) :
    readLine s line = .ok { s with current := some (e.add text) } := by
  obtain ⟨k, rfl, hk⟩ := hline
  have hproceed : s.proceed text = { s with current := some (e.add text) } := by
    rw [State.proceed, hcurrent]
    rfl
  rw [← hproceed]
  by_cases hne : text = []
  · -- an empty line, with blanks or without
    subst hne
    have hblank : (List.replicate k ' ' ++ []).all isBlank = true := by
      rw [List.append_nil]
      exact List.all_eq_true.mpr isBlank_of_mem_replicate
    have hread : readBlank s = s.proceed [] := by
      rw [readBlank, hcurrent]
      rfl
    rw [← hread]
    exact (Reads.blank hblank).readLine
  · have hnk : n < k := hk.resolve_left hne
    obtain ⟨hindented, hindent, htrim⟩ :=
      isIndented_replicate (isBlank_of_head_of_trim htext) hne (show 0 < k by omega)
    have hread := reads_deeper hindented (by simp [hcurrent]) hmargin (by rwa [hindent])
    rw [htrim, htext] at hread
    exact hread.readLine

theorem read_continued {s : State} {e : Entry} {n : Nat} {texts lines : List (List Char)}
    (hcurrent : s.current = some e)
    (hmargin : ∀ tag ∈ s.openSection, isNamedSection tag = true → s.itemIndent = some n)
    (htexts : ∀ t ∈ texts, IsPlain t) (hlines : List.Forall₂ (Continues n) texts lines) :
    lines.foldlM readLine s
      = .ok { s with current := some { e with lines := e.lines ++ texts } } := by
  induction hlines generalizing s e with
  | nil =>
    rw [List.append_nil, ← hcurrent]
    rfl
  | @cons text line texts lines hline _ ih =>
    have htext : trim text = text := (htexts text List.mem_cons_self).trimmed
    have hrest := ih (s := { s with current := some (e.add text) }) rfl hmargin
      fun t ht => htexts t (List.mem_cons_of_mem _ ht)
    rw [List.foldlM_cons, readLine_continued hcurrent hmargin htext hline, ok_bind, hrest]
    simp [Entry.add]

/-! ### The line that opens an item -/

/-- A line with a colon in it, without the blanks behind it. -/
theorem trim_append_colon (front rest : List Char)
    (hfront : ∀ c ∈ front.head?, isBlank c = false) :
    trim (front ++ ':' :: rest) = front ++ ':' :: trimRight rest := by
  have hhead : ∀ c ∈ (front ++ ':' :: rest).head?, Text.isBlank c = false := by
    rcases front with - | ⟨c, cs⟩
    · simp; decide
    · exact hfront
  rw [trim, trimLeft_of_head hhead, trimRight_append_cons (by decide)]

/-- The text behind a colon is found, whether or not the blanks at the end of the line are cut. -/
theorem IsBehind.trimRight {text rest : List Char} (h : IsBehind text rest)
    (htext : trim text = text) :
    (∀ c ∈ (Text.trimRight rest).head?, isBlank c = true) ∧
      trimLeft (Text.trimRight rest) = text := by
  have hspace : ∀ c ∈ [' '], isBlank c = true := isBlank_of_mem_replicate (k := 1)
  rw [trimLeft_trimRight]
  rcases h with rfl | ⟨rfl, rfl⟩
  · refine ⟨fun c hc => ?_, ?_⟩
    · have hc' : c ∈ (' ' :: text).head? := mem_head?_of_trimRight hc
      exact hspace c (by simpa using hc'.symm)
    · exact (trim_append_of_blank hspace text).trans htext
  · exact ⟨by simp, rfl⟩

/-- The type in the brackets of an entry. -/
def typeOf (type : List (List Char)) : Option (List Char) :=
  if type = [] then none else some ([' '].intercalate type)

/-- The attributes of an entry are its name and the words of its type. -/
theorem sectionEntry_typeOf {type : List (List Char)} (htype : ∀ w ∈ type, IsTypeWord w)
    (tag : String) (name text : List Char) :
    sectionEntry tag name (typeOf type) text = ⟨tag, nameAndType type name, [text]⟩ := by
  rcases type with - | ⟨word, type⟩
  · rfl
  · have htrim : trim ([' '].intercalate (word :: type)) = [' '].intercalate (word :: type) :=
      trim_intercalate fun w hw => ⟨(htype w hw).ne_nil, (htype w hw).isBlank⟩
    obtain ⟨c, cs, e⟩ := List.exists_cons_of_ne_nil
      (intercalate_ne_nil List.mem_cons_self (htype word List.mem_cons_self).ne_nil)
    have hattributes : nameAndType (word :: type) name = [("name", String.ofList name),
        ("type", String.ofList ([' '].intercalate (word :: type)))] := rfl
    rw [e] at htrim
    rw [hattributes, typeOf, if_neg (by simp), e]
    show Entry.mk tag [("name", String.ofList name), ("type", String.ofList (trim (c :: cs)))]
      [text] = _
    rw [htrim]

theorem isEntryLine_of_google {name rest : List Char} {type : List (List Char)}
    (hname : IsName name) (htype : ∀ w ∈ type, IsTypeWord w) (hrest : ∀ c ∈ rest.head?, isBlank c = true) :
    IsEntryLine (name ++ brackets type ++ ':' :: rest) name (typeOf type) rest := by
  refine ⟨?_, hname.ne_nil, hname.isNamePart, ?_, hrest⟩
  · refine ⟨[], if type = [] then [] else [' '], [], ?_, .inl rfl, ?_, by simp⟩
    · unfold brackets typeOf
      split
      · simp [inBrackets]
      · simp [inBrackets]
    · intro c hc
      split at hc
      · cases hc
      · rw [List.mem_singleton.mp hc]
        decide
  · intro t ht
    unfold typeOf at ht
    split at ht
    · cases ht
    · cases ht
      exact forall_mem_intercalate (by decide) fun w hw c hc => ((htype w hw).ne c hc).2.2

theorem reads_google {s : State} {kind : Kind} {name first rest : List Char}
    {type : List (List Char)} (hopen : s.openSection = some kind.tag)
    (hitem : s.itemIndent = none ∨ s.itemIndent = some 4) (hname : IsName name)
    (htype : ∀ w ∈ type, IsTypeWord w) (hfirst : trim first = first) (hrest : IsBehind first rest) :
    Reads s (List.replicate 4 ' ' ++ (name ++ brackets type ++ ':' :: rest))
      ({ s with itemIndent := some 4 }.start ⟨kind.tag, nameAndType type name, [first]⟩) := by
  obtain ⟨n, ns, hcons⟩ := List.exists_cons_of_ne_nil hname.ne_nil
  have hhead : ∀ c ∈ (name ++ brackets type).head?, isBlank c = false := by
    rw [hcons]
    simpa using hname.isBlank n (hcons ▸ List.mem_cons_self)
  have hhead' : ∀ c ∈ (name ++ brackets type ++ ':' :: rest).head?, isBlank c = false := by
    rw [hcons] at hhead ⊢
    exact hhead
  obtain ⟨hindented, hindent, htrim⟩ :=
    isIndented_replicate hhead' (by simp) (show 0 < 4 by decide)
  obtain ⟨hblank, htext⟩ := hrest.trimRight hfirst
  have hmargin : s.margin (List.replicate 4 ' ' ++ (name ++ brackets type ++ ':' :: rest)) = 4 := by
    rw [State.margin, hindent]
    rcases hitem with e | e
    · rw [e, Option.getD_none]
    · rw [e, Option.getD_some]
  have hread := Reads.entry hindented hopen kind.isNamedSection_tag (by rw [hindent, hmargin])
    (by
      rw [htrim, trim_append_colon _ _ hhead]
      exact isEntryLine_of_google hname htype hblank)
  rw [hmargin, htext, sectionEntry_typeOf htype] at hread
  exact hread

/-- The last word of an argument is the name, the others are the type. -/
theorem words_argumentOf {name : List Char} {type : List (List Char)} (hname : IsName name)
    (htype : ∀ w ∈ type, IsTypeWord w) : words (argumentOf type name) = type ++ [name] := by
  have hwords : ∀ w ∈ type ++ [name], w ≠ [] ∧ ∀ c ∈ w, isBlank c = false := by
    rw [List.forall_mem_append, List.forall_mem_singleton]
    exact ⟨fun w hw => ⟨(htype w hw).ne_nil, (htype w hw).isBlank⟩, hname.ne_nil, hname.isBlank⟩
  rw [argumentOf, words_cons_blank (by decide), words_intercalate hwords]

theorem isFieldLine_of_sphinx (kind : Kind) {name rest : List Char} {type : List (List Char)}
    (hname : IsName name) (htype : ∀ w ∈ type, IsTypeWord w)
    (hrest : ∀ c ∈ rest.head?, isBlank c = true) :
    IsFieldLine (':' :: (kind.field ++ argumentOf type name) ++ ':' :: rest) kind.field
      (argumentOf type name) rest := by
  have hne : ∀ w ∈ type ++ [name], ∀ c ∈ w, c ≠ ':' := by
    rw [List.forall_mem_append, List.forall_mem_singleton]
    exact ⟨fun w hw c hc => ((htype w hw).ne c hc).1, hname.ne_colon⟩
  have hsome : [' '].intercalate (type ++ [name]) ≠ [] := intercalate_ne_nil (by simp) hname.ne_nil
  refine ⟨by simp, kind.field_ne_nil, kind.isWordChar_of_mem_field, ?_, ?_, fun _ => ?_, hrest⟩
  · exact List.forall_mem_cons.mpr ⟨by decide, forall_mem_intercalate (by decide) hne⟩
  · simp [argumentOf]
    decide
  · have hlength := List.length_pos_of_ne_nil hsome
    rw [argumentOf, List.length_cons]
    omega

theorem isFlush_colon (rest : List Char) : IsFlush (':' :: rest) := isFlush_cons (by decide) rest

theorem reads_sphinx (s : State) (kind : Kind) {name first rest : List Char}
    {type : List (List Char)} (hname : IsName name) (htype : ∀ w ∈ type, IsTypeWord w)
    (hfirst : trim first = first) (hrest : IsBehind first rest) :
    Reads s (':' :: (kind.field ++ argumentOf type name) ++ ':' :: rest)
      ({ s with openSection := none }.start ⟨kind.tag, nameAndType type name, [first]⟩) := by
  obtain ⟨hblank, htext⟩ := hrest.trimRight hfirst
  have htrim := trim_append_colon (':' :: (kind.field ++ argumentOf type name)) rest
    (by simp; decide)
  have hform := isFieldLine_of_sphinx kind hname htype hblank
  rw [← htrim] at hform
  have hread := Reads.field (s := s) (isFlush_colon _) hform (words_argumentOf hname htype)
  rw [kind.fieldTag_field, htext] at hread
  exact hread

theorem reads_sphinx_result (s : State) {first rest : List Char} (hfirst : trim first = first)
    (hrest : IsBehind first rest) :
    Reads s (':' :: "returns".toList ++ ':' :: rest)
      ({ s with openSection := none }.start ⟨"return", [], [first]⟩) := by
  obtain ⟨hblank, htext⟩ := hrest.trimRight hfirst
  have htrim := trim_append_colon (':' :: "returns".toList) rest (by simp; decide)
  have hform : IsFieldLine (':' :: "returns".toList ++ ':' :: Text.trimRight rest) "returns".toList
      [] (Text.trimRight rest) :=
    ⟨rfl, by decide, isWordChar_of_mem_returns, by simp, by simp, fun h => absurd rfl h, hblank⟩
  rw [← htrim] at hform
  have hread := Reads.bareField (s := s) (isFlush_colon _) hform
  rw [htext] at hread
  exact hread

/-! ### Items, one after the other -/

/-- A section of a kind is open, and its entries are indented by four spaces if there are any. -/
structure IsOpenAt (kind : Kind) (s : State) : Prop where
  openSection : s.openSection = some kind.tag
  itemIndent : s.itemIndent = none ∨ s.itemIndent = some 4

/-- Lines are read as an item, whatever follows them. -/
structure ReadsItem (s : State) (lines : List (List Char)) (i : Item) (s' : State) : Prop where
  read : ∀ rest, (lines ++ rest).foldlM readLine s = rest.foldlM readLine s'
  description : s'.description = s.description
  entries : s'.entries = s.entries ++ [i.entry]

/-- Lines are read as items. -/
def ReadsItems (s : State) (lines : List (List Char)) (items : List Item) : Prop :=
  ∃ s', lines.foldlM readLine s = .ok s' ∧ s'.description = s.description ∧
    s'.entries = s.entries ++ items.map Item.entry

theorem readsItems_nil (s : State) : ReadsItems s [] [] := ⟨s, rfl, rfl, by simp⟩

theorem ReadsItem.cons {s t : State} {lines rest : List (List Char)} {i : Item} {items : List Item}
    (hi : ReadsItem s lines i t) (h : ReadsItems t rest items) :
    ReadsItems s (lines ++ rest) (i :: items) := by
  obtain ⟨s', hread, hdescription, hentries⟩ := h
  refine ⟨s', (hi.read rest).trans hread, hdescription.trans hi.description, ?_⟩
  rw [hentries, hi.entries, List.map_cons, List.append_assoc, List.singleton_append]

/-- An item is read line by line: the line that opens it, and those that go on with it. -/
theorem readsItem_of_opening {s t : State} {i : Item} {n : Nat} {opening : List Char}
    {lines texts more : List (List Char)}
    (hopening : Reads s opening (t.start ⟨i.head.tag, i.head.attributes, lines⟩))
    (hlines : lines ++ texts = i.first :: i.more) (hdescription : t.description = s.description)
    (hentries : t.entries = s.entries)
    (hmargin : ∀ tag ∈ t.openSection, isNamedSection tag = true → t.itemIndent = some n)
    (htexts : ∀ l ∈ texts, IsPlain l) (hmore : List.Forall₂ (Continues n) texts more) :
    ReadsItem s (opening :: more) i
      { t.start ⟨i.head.tag, i.head.attributes, lines⟩ with current := some i.entry } := by
  refine ⟨fun rest => ?_, hdescription, ?_⟩
  · have hread := read_continued (s := t.start ⟨i.head.tag, i.head.attributes, lines⟩) rfl hmargin
      htexts hmore
    rw [List.cons_append, List.foldlM_cons, hopening.readLine, ok_bind, List.foldlM_append, hread,
      ok_bind, hlines]
    rfl
  · rw [← hentries]
    rfl

/-- In a section of its kind, an item with a name is a line that opens an entry. -/
theorem exists_readsItem_further {s : State} {k : Kind} {i : Item} {opening : List Char}
    {more : List (List Char)} (hs : IsOpenAt k s) (hkind : i.head.kind? = some k)
    (hi : i.IsWritable) (hopening : GoogleOpening i opening)
    (hmore : List.Forall₂ (Continues 4) i.more more) :
    ∃ s', ReadsItem s (opening :: more) i s' ∧ IsOpenAt k s' := by
  cases hopening with
  | named hrest =>
    cases hkind
    obtain ⟨hname, htype⟩ := hi.head
    have hreads := reads_google hs.openSection hs.itemIndent hname htype hi.first.trimmed hrest
    exact ⟨_, readsItem_of_opening (t := { s with itemIndent := some 4 }) hreads rfl rfl rfl
      (fun _ _ _ => rfl) hi.more hmore, hs.openSection, .inr rfl⟩
  | result => cases hkind

theorem IsHeadingLine.isFlush {line : List Char} {tag : String} (h : IsHeadingLine line tag) :
    IsFlush line ∧ trim line = line := by
  obtain ⟨c, cs, rfl, hc, -⟩ := h.eq
  have hblank := isBlank_of_isAlpha hc
  refine ⟨isFlush_cons hblank _, ?_⟩
  exact trim_append_colon (c :: cs) [] (by simpa using hblank)

/-- A heading opens a section, and its first item follows. -/
theorem exists_readsItem_heading {s : State} {i : Item} {heading opening : List Char}
    {more : List (List Char)} (hheading : IsHeadingLine heading i.head.tag) (hi : i.IsWritable)
    (hopening : GoogleOpening i opening) (hmore : List.Forall₂ (Continues 4) i.more more) :
    ∃ s', ReadsItem s (heading :: opening :: more) i s' ∧
      ∀ k ∈ i.head.kind?, IsOpenAt k s' := by
  obtain ⟨hflush, htrim⟩ := hheading.isFlush
  rw [← htrim] at hheading
  rcases hkind : i.head.kind? with - | k
  · -- the entry of what is returned is open from the heading on
    cases hopening with
    | named hrest => cases hkind
    | @result first more' =>
      have hplain : isNamedSection "return" = false := by decide
      have hreads := Reads.plainHeading (s := s) hflush hheading hplain
      have hlines : List.Forall₂ (Continues 0) (first :: more')
          ((List.replicate 4 ' ' ++ first) :: more) :=
        .cons ⟨4, rfl, .inr (by decide)⟩ (hmore.imp fun _ _ h => continues_zero h)
      refine ⟨_, readsItem_of_opening
        (t := { s.close with openSection := some "return", itemIndent := none }) hreads rfl rfl
        s.entries_close ?_ (List.forall_mem_cons.mpr ⟨hi.first, hi.more⟩) hlines, by simp⟩
      intro tag htag hnamed
      cases htag
      rw [hplain] at hnamed
      cases hnamed
  · have htag : i.head.tag = k.tag := by
      obtain ⟨head, first, more'⟩ := i
      cases head with
      | named kind name type =>
        cases hkind
        rfl
      | result => cases hkind
    rw [htag] at hheading
    have hreads := Reads.heading (s := s) hflush hheading k.isNamedSection_tag
    obtain ⟨s', hitem, hs'⟩ := exists_readsItem_further
      (s := { s.close with openSection := some k.tag, itemIndent := none }) ⟨rfl, .inl rfl⟩ hkind hi
      hopening hmore
    refine ⟨s', ⟨fun rest => ?_, hitem.description, ?_⟩, fun l hl => ?_⟩
    · rw [List.cons_append, List.foldlM_cons, hreads.readLine, ok_bind, hitem.read]
    · rw [hitem.entries]
      exact congrArg (· ++ [i.entry]) s.entries_close
    · cases hl
      exact hs'

theorem readsItems_google {o : Option Kind} {items : List Item} {lines : List (List Char)}
    (h : Google o items lines) (hitems : ∀ i ∈ items, i.IsWritable) {s : State}
    (hs : ∀ k ∈ o, IsOpenAt k s) : ReadsItems s lines items := by
  induction h generalizing s with
  | nil => exact readsItems_nil s
  | heading hheading hopening hmore _ ih =>
    obtain ⟨hi, hrest⟩ := List.forall_mem_cons.mp hitems
    obtain ⟨s₁, hitem, hs₁⟩ := exists_readsItem_heading hheading hi hopening hmore
    exact hitem.cons (ih hrest hs₁)
  | further hkind hopening hmore _ ih =>
    obtain ⟨hi, hrest⟩ := List.forall_mem_cons.mp hitems
    obtain ⟨s₁, hitem, hs₁⟩ := exists_readsItem_further (hs _ rfl) hkind hi hopening hmore
    exact hitem.cons (ih hrest fun k hk => by cases hk; exact hs₁)

/-- A field opens an entry in any place. -/
theorem exists_readsItem_sphinx {s : State} {i : Item} {opening : List Char}
    {more : List (List Char)} (hi : i.IsWritable) (hopening : SphinxOpening i opening)
    (hmore : List.Forall₂ (Continues 0) i.more more) :
    ∃ s', ReadsItem s (opening :: more) i s' := by
  have hmargin : ∀ tag ∈ (none : Option String), isNamedSection tag = true →
      s.itemIndent = some 0 := by simp
  cases hopening with
  | @named kind _ _ _ _ _ hrest =>
    obtain ⟨hname, htype⟩ := hi.head
    have hreads := reads_sphinx s kind hname htype hi.first.trimmed hrest
    exact ⟨_, readsItem_of_opening (t := { s with openSection := none }) hreads rfl rfl rfl hmargin
      hi.more hmore⟩
  | result hrest =>
    have hreads := reads_sphinx_result s hi.first.trimmed hrest
    exact ⟨_, readsItem_of_opening (t := { s with openSection := none }) hreads rfl rfl rfl hmargin
      hi.more hmore⟩

theorem readsItems_sphinx {items : List Item} {lines : List (List Char)} (h : Sphinx items lines)
    (hitems : ∀ i ∈ items, i.IsWritable) (s : State) : ReadsItems s lines items := by
  induction h generalizing s with
  | nil => exact readsItems_nil s
  | cons hopening hmore _ ih =>
    obtain ⟨hi, hrest⟩ := List.forall_mem_cons.mp hitems
    obtain ⟨s₁, hitem⟩ := exists_readsItem_sphinx hi hopening hmore
    exact hitem.cons (ih hrest s₁)

/-! ### Descriptions -/

theorem read_description {lines : List (List Char)} (h : ∀ l ∈ lines, IsDescriptionLine l)
    (before : List (List Char)) :
    lines.foldlM readLine { description := before } = .ok { description := before ++ lines } := by
  induction lines generalizing before with
  | nil => rw [List.append_nil]; rfl
  | cons l lines ih =>
    obtain ⟨hl, hlines⟩ := List.forall_mem_cons.mp h
    have hread : readLine { description := before } l = .ok { description := before ++ [l] } := by
      rcases l with - | ⟨c, cs⟩
      · rfl
      · have htrim := hl.plain.trimmed
        have hc : isBlank c = false := isBlank_of_head_of_trim htrim c rfl
        have hreads := Reads.text (s := { description := before }) (isFlush_cons hc cs)
          (htrim.symm ▸ hl.not_heading) (htrim.symm ▸ hl.not_field)
        rw [trimRight_of_trim htrim] at hreads
        exact hreads.readLine
    rw [List.foldlM_cons, hread, ok_bind, ih hlines, List.append_assoc, List.singleton_append]

/-! ### Texts -/

/-- An empty line at the end changes nothing, wherever it goes. -/
theorem documentation_readBlank (s : State) (position : Option Position) :
    documentation (readBlank s).description (readBlank s).entries position
      = documentation s.description s.entries position := by
  unfold readBlank
  split
  · next hcurrent =>
    obtain ⟨e, he⟩ := Option.isSome_iff_exists.mp hcurrent
    have htag : (e.add []).toTag = e.toTag := by
      rw [Entry.toTag, Entry.add, joinTrimmed_concat_nil]
      rfl
    rw [documentation, documentation, State.entries_proceed_of_current he,
      State.entries_of_current he, List.map_append, List.map_append, List.map_singleton,
      List.map_singleton, htag]
    rfl
  · split
    · show documentation (s.description ++ [[]]) s.entries position = _
      rw [documentation, joinTrimmed_concat_nil, documentation]
    · rfl

/-- A docstring is read from its lines, also if the last of them is empty and leaves no trace in the
text. -/
theorem parse_textOf {lines : List (List Char)} {s : State} (hlines : ∀ l ∈ lines, IsOneLine l)
    (h : lines.foldlM readLine {} = .ok s) (position : Option Position) :
    parse (textOf lines) position = .ok (documentation s.description s.entries position) := by
  have hunbroken : ∀ l ∈ lines, IsUnbroken l := fun l hl c hc => (hlines l hl c hc).1
  have htab : '\t' ∉ ['\n'].intercalate lines := fun hmem =>
    forall_mem_intercalate (P := (· ≠ '\t')) (by decide) (fun l hl c hc => (hlines l hl c hc).2)
      _ hmem rfl
  have hof : linesOf (textOf lines) = splitLines (['\n'].intercalate lines) := by
    rw [linesOf, textOf, String.toList_ofList, expandTabs, expandTabsFrom_of_notMem htab]
  rw [parse_eq_ok_iff]
  rcases splitLines_intercalate hunbroken with e | e
  · exact ⟨s, by rw [read, hof, e, h], rfl⟩
  · rw [← hof] at e
    rw [e, List.foldlM_append, bind_eq_ok_iff] at h
    obtain ⟨s₁, hs₁, hlast⟩ := h
    cases hlast
    exact ⟨s₁, hs₁, documentation_readBlank s₁ position⟩

theorem documentation_items (description : List (List Char)) (items : List Item)
    (position : Option Position) :
    documentation description (items.map Item.entry) position
      = ⟨.docstring, String.ofList (joinTrimmed description), position,
          items.map Item.toTag, []⟩ := by
  have htags : (items.map Item.entry).map Entry.toTag = items.map Item.toTag := by
    rw [List.map_map]
    exact List.map_congr_left fun i _ => i.toTag_entry
  rw [documentation, htags]

/-- Behind a description, lines that are read as items make up their tags. -/
theorem parse_of_readsItems {description lines : List (List Char)} {items : List Item}
    (hdescription : ∀ l ∈ description, IsDescriptionLine l) (hlines : ∀ l ∈ lines, IsOneLine l)
    (h : ReadsItems { description := description } lines items) (position : Option Position) :
    parse (textOf (description ++ lines)) position
      = .ok ⟨.docstring, String.ofList (joinTrimmed description), position,
          items.map Item.toTag, []⟩ := by
  obtain ⟨s, hread, hs, hentries⟩ := h
  have hall : ∀ l ∈ description ++ lines, IsOneLine l :=
    List.forall_mem_append.mpr ⟨fun l hl => (hdescription l hl).plain.oneLine, hlines⟩
  have hfold : (description ++ lines).foldlM readLine {} = .ok s := by
    have hfront : description.foldlM readLine {} = .ok { description := description } :=
      read_description hdescription []
    rw [List.foldlM_append, hfront, ok_bind, hread]
  rw [parse_textOf hall hfold, hs, hentries]
  exact congrArg Except.ok (documentation_items description items position)

/-! ### The two spellings say the same -/

/-- A description and items can be spelled with sections and with fields.  Each text that spells
them in either way is read as the description and the tags of the items, in order. -/
theorem parse_spellings {description : List (List Char)} {items : List Item}
    (hdescription : ∀ l ∈ description, IsDescriptionLine l)
    (hitems : ∀ i ∈ items, i.IsWritable) (position : Option Position) :
    ((∃ lines, Google none items lines) ∧ ∀ lines, Google none items lines →
      parse (textOf (description ++ lines)) position
        = .ok ⟨.docstring, String.ofList (joinTrimmed description), position,
            items.map Item.toTag, []⟩) ∧
    (∃ lines, Sphinx items lines) ∧ ∀ lines, Sphinx items lines →
      parse (textOf (description ++ lines)) position
        = .ok ⟨.docstring, String.ofList (joinTrimmed description), position,
            items.map Item.toTag, []⟩ := by
  refine ⟨⟨exists_google none items, fun lines h => ?_⟩, exists_sphinx items, fun lines h => ?_⟩
  · exact parse_of_readsItems hdescription (isOneLine_of_google h hitems)
      (readsItems_google h hitems (by simp)) position
  · exact parse_of_readsItems hdescription (isOneLine_of_sphinx h hitems)
      (readsItems_sphinx h hitems _) position

/-- A further line may look like a heading or a field. -/
theorem parse_spellings_size :
    (∀ l ∈ ["Counts.".toList], IsDescriptionLine l) ∧
    (∀ i ∈ [Item.mk (.named .param "size".toList ["int".toList]) "in: bytes".toList
      ["Raises:".toList], Item.mk .result [] [":x y: z".toList]], i.IsWritable) ∧
    ∀ lines ∈ [["Args:".toList, "    size (int): in: bytes".toList, "        Raises:".toList,
          "Returns:".toList, "    ".toList, "      :x y: z".toList],
        [":param int size: in: bytes".toList, "  Raises:".toList, ":returns:".toList,
          "  :x y: z".toList]],
      parse (textOf (["Counts.".toList] ++ lines)) none = .ok ⟨.docstring, "Counts.", none,
        [⟨"param", "in: bytes\nRaises:", [("name", "size"), ("type", "int")]⟩,
          ⟨"return", ":x y: z", []⟩], []⟩ := by
  have hdescription : ∀ l ∈ ["Counts.".toList], IsDescriptionLine l := by decide +kernel
  have hitems : ∀ i ∈ [Item.mk (.named .param "size".toList ["int".toList]) "in: bytes".toList
      ["Raises:".toList], Item.mk .result [] [":x y: z".toList]], i.IsWritable := by decide +kernel
  have hgoogle : Google none [Item.mk (.named .param "size".toList ["int".toList])
      "in: bytes".toList ["Raises:".toList], Item.mk .result [] [":x y: z".toList]]
      ["Args:".toList, "    size (int): in: bytes".toList, "        Raises:".toList,
        "Returns:".toList, "    ".toList, "      :x y: z".toList] := by
    have hargs := Head.isHeadingLine_heading (.named .param "size".toList ["int".toList])
    have hreturns := Head.isHeadingLine_heading .result
    refine .heading (i := Item.mk _ _ _) hargs (.named (.inl rfl)) (.cons ⟨8, rfl, .inr ?_⟩ .nil) ?_
    · decide
    · exact .heading hreturns .result (.cons ⟨6, rfl, .inr (by decide)⟩ .nil) .nil
  have hsphinx : Sphinx [Item.mk (.named .param "size".toList ["int".toList])
      "in: bytes".toList ["Raises:".toList], Item.mk .result [] [":x y: z".toList]]
      [":param int size: in: bytes".toList, "  Raises:".toList, ":returns:".toList,
        "  :x y: z".toList] := by
    have hparam : SphinxOpening (Item.mk (.named .param "size".toList ["int".toList])
        "in: bytes".toList ["Raises:".toList]) ":param int size: in: bytes".toList :=
      .named (.inl rfl)
    have hreturns : SphinxOpening (Item.mk .result [] [":x y: z".toList]) ":returns:".toList :=
      .result (.inr ⟨rfl, rfl⟩)
    refine .cons hparam (.cons ⟨2, rfl, .inr ?_⟩ .nil) ?_
    · decide
    · exact .cons hreturns (.cons ⟨2, rfl, .inr (by decide)⟩ .nil) .nil
  obtain ⟨⟨-, hreadGoogle⟩, -, hreadSphinx⟩ := parse_spellings hdescription hitems none
  refine ⟨hdescription, hitems, ?_⟩
  rw [List.forall_mem_cons, List.forall_mem_singleton]
  exact ⟨hreadGoogle _ hgoogle, hreadSphinx _ hsphinx⟩

end CodeOutline.Docstring
