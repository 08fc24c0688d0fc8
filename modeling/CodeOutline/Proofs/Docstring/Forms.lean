/-
CodeOutline/Proofs/Docstring/Forms.lean

The lines that a docstring gives a meaning of their own.

Three forms of trimmed lines count: headings of sections (`IsHeadingLine`), fields
`:name argument: text` (`IsFieldLine`) and entries `name (type): text` (`IsEntryLine`).  Each form
is said here as a concatenation of its parts, and the reader of the form is shown to find exactly
these lines and to give back their parts (`header?_eq_some_iff`, `field?_eq_some_iff`,
`entry?_eq_some_iff`).

The space between the name of a field and the colon after it is kept whole here (`inner`): it is
empty, or begins with a blank and holds at least one more character.  The argument is what is left
of it without the blanks in front (`argumentIn`), but where only blanks are there it is one of them.
-/
import CodeOutline.Docstring
import CodeOutline.Proofs.Text.Words

namespace CodeOutline.Docstring

open Text

/-! ### Colons -/

theorem ne_colon_of_isBlank {c : Char} (h : isBlank c = true) : c ≠ ':' := by
  rintro rfl
  exact absurd h (by decide)

/-- Behind a colon stands nothing, or a blank and then the text. -/
theorem afterColon?_eq_some_iff {rest text : List Char} :
    afterColon? rest = some text ↔
      (∀ c ∈ rest.head?, isBlank c = true) ∧ text = trimLeft rest := by
  rcases rest with - | ⟨c, cs⟩
  · simp [afterColon?]
  · by_cases hc : isBlank c = true
    · simpa [afterColon?, hc] using eq_comm
    · simp [afterColon?, hc]

theorem eq_colon_of_dropWhile {cs rest : List Char} {c : Char}
    (h : cs.dropWhile (· != ':') = c :: rest) : c = ':' := by
  have hhead := List.head?_dropWhile_not (· != ':') cs
  rw [h] at hhead
  simpa using hhead

/-! ### Headings -/

/-- A line with a name of letters and spaces and a colon, which opens a section about `tag`. -/
structure IsHeadingLine (line : List Char) (tag : String) : Prop where
  eq : ∃ c cs, line = c :: (cs ++ [':']) ∧ c.isAlpha = true ∧
    (∀ d ∈ cs, d.isAlpha = true ∨ d = ' ') ∧
    sectionTag? (String.ofList ((trim (c :: cs)).map Char.toLower)) = some tag

theorem header?_eq_some_iff {line : List Char} {tag : String} :
    header? line = some tag ↔ IsHeadingLine line tag := by
  constructor
  · intro h
    unfold header? at h
    split at h
    · next back hback =>
      split at h
      · cases h
      · next c cs hcs =>
        split at h
        · next hc =>
          have hline : line = c :: (cs ++ [':']) := by
            rw [← List.reverse_reverse line, hback, List.reverse_cons, hcs]
            rfl
          obtain ⟨hfirst, hall⟩ := Bool.and_eq_true_iff.mp hc
          refine ⟨c, cs, hline, hfirst, fun d hd => ?_, h⟩
          simpa using List.all_eq_true.mp hall d hd
        · cases h
    · cases h
  · rintro ⟨c, cs, rfl, hc, hcs, htag⟩
    have hall : cs.all (fun d => d.isAlpha || d == ' ') = true :=
      List.all_eq_true.mpr fun d hd => by simpa using hcs d hd
    have hreverse : (c :: (cs ++ [':'])).reverse = ':' :: (c :: cs).reverse := by simp
    rw [header?, hreverse]
    simp only [List.reverse_reverse, hc, hall, Bool.and_self, if_true]
    exact htag

/-! ### Fields -/

/-- The argument in the space between the name of a field and the colon after it. -/
def argumentIn (inner : List Char) : Option (List Char) :=
  if inner = [] then none
  else if trimLeft inner = [] then some [' '] else some (trimLeft inner)

/-- A line `:name inner: rest`. -/
structure IsFieldLine (line name inner rest : List Char) : Prop where
  eq : line = ':' :: (name ++ (inner ++ ':' :: rest))
  name_ne_nil : name ≠ []
  name_word : ∀ c ∈ name, isWordChar c = true
  ne_colon : ∀ c ∈ inner, c ≠ ':'
  inner_head : ∀ c ∈ inner.head?, isBlank c = true
  two_le : inner ≠ [] → 2 ≤ inner.length
  rest_head : ∀ c ∈ rest.head?, isBlank c = true

theorem IsFieldLine.field? {line name inner rest : List Char}
    (h : IsFieldLine line name inner rest) :
    Docstring.field? line = some (name, argumentIn inner, trimLeft rest) := by
  obtain ⟨rfl, hname, hword, hinner, hhead, htwo, hrest⟩ := h
  have hafter : afterColon? rest = some (trimLeft rest) :=
    afterColon?_eq_some_iff.mpr ⟨hrest, rfl⟩
  have hstop : ∀ c ∈ (inner ++ ':' :: rest).head?, isWordChar c = false := by
    intro c hc
    rcases inner with - | ⟨d, ds⟩
    · have hcolon : c = ':' := by simpa using hc.symm
      rw [hcolon]
      decide
    · exact isWordChar_of_isBlank (hhead c hc)
  obtain ⟨htake, hdrop⟩ := takeWhile_append_of_head hword hstop
  obtain ⟨htake', hdrop'⟩ := takeWhile_append_of_head (p := (· != ':')) (b := ':' :: rest)
    (fun c hc => by simpa using hinner c hc) (by simp)
  obtain ⟨n, ns, rfl⟩ := List.exists_cons_of_ne_nil hname
  rw [Docstring.field?, htake, hdrop]
  rcases inner with - | ⟨b, inner⟩
  · -- the colon stands right behind the name
    simp [hafter, argumentIn]
  · have hb : isBlank b = true := hhead b rfl
    have htrim : trimLeft (b :: inner) = trimLeft inner := by
      rw [trimLeft, List.dropWhile_cons_of_pos hb, trimLeft]
    obtain ⟨d, ds, rfl⟩ : ∃ d ds, inner = d :: ds := by
      rcases inner with - | ⟨d, ds⟩
      · exact absurd (htwo (by simp)) (by simp)
      · exact ⟨d, ds, rfl⟩
    split
    · next e => cases e
    · next e _ => exact absurd (List.cons.inj e).1 (ne_colon_of_isBlank hb)
    · rw [htake', hdrop']
      simp only [hb, if_true, argumentIn, htrim, reduceCtorEq, if_false, hafter, Option.map_some]
      rcases e : trimLeft (d :: ds) with - | ⟨a, as⟩
      · simp
      · simp

theorem isFieldLine_of_field? {line name text : List Char} {argument : Option (List Char)}
    (h : field? line = some (name, argument, text)) :
    ∃ inner rest, IsFieldLine line name inner rest ∧ argument = argumentIn inner ∧
      text = trimLeft rest := by
  unfold field? at h
  split at h
  · next cs =>
    have hcs := List.takeWhile_append_dropWhile (p := isWordChar) (l := cs)
    have hword : ∀ c ∈ cs.takeWhile isWordChar, isWordChar c = true :=
      fun c hc => List.all_eq_true.mp List.all_takeWhile c hc
    split at h
    · cases h
    · -- no argument
      next rest hdrop hne =>
      obtain ⟨t, htext, he⟩ := Option.map_eq_some_iff.mp h
      obtain ⟨hrest, rfl⟩ := afterColon?_eq_some_iff.mp htext
      cases he
      rw [hdrop] at hcs
      refine ⟨[], rest, ⟨by rw [List.nil_append, hcs], hne, hword, by simp, by simp, ?_, hrest⟩,
        rfl, rfl⟩
      exact fun e => absurd rfl e
    · next hne _ =>
      simp only at h
      split at h
      · next b more c rest htake hdrop =>
        have hrest := List.takeWhile_append_dropWhile (p := (· != ':'))
          (l := cs.dropWhile isWordChar)
        rw [htake, hdrop, eq_colon_of_dropWhile hdrop] at hrest
        rw [← hrest] at hcs
        have hinner : ∀ c ∈ b :: more, c ≠ ':' := by
          intro c hc
          rw [← htake] at hc
          simpa using List.all_eq_true.mp List.all_takeWhile c hc
        split at h
        · next hb =>
          rcases more with - | ⟨d, ds⟩
          · -- one blank is no argument
            cases h
          · have htrim : trimLeft (b :: d :: ds) = trimLeft (d :: ds) := by
              rw [trimLeft, List.dropWhile_cons_of_pos hb, trimLeft]
            have hline : (∀ c ∈ rest.head?, isBlank c = true) →
                IsFieldLine (':' :: cs) (cs.takeWhile isWordChar) (b :: d :: ds) rest :=
              fun hhead => ⟨by rw [hcs], hne, hword, hinner, by simpa using hb,
                fun _ => by simp, hhead⟩
            rcases e : trimLeft (d :: ds) with - | ⟨a, as⟩
            · rw [e] at h
              obtain ⟨t, htext, he⟩ := Option.map_eq_some_iff.mp h
              obtain ⟨hhead, rfl⟩ := afterColon?_eq_some_iff.mp htext
              cases he
              exact ⟨_, rest, hline hhead, by simp [argumentIn, htrim, e], rfl⟩
            · rw [e] at h
              obtain ⟨t, htext, he⟩ := Option.map_eq_some_iff.mp h
              obtain ⟨hhead, rfl⟩ := afterColon?_eq_some_iff.mp htext
              cases he
              exact ⟨_, rest, hline hhead, by simp [argumentIn, htrim, e], rfl⟩
        · cases h
      · cases h
  · cases h

/-- The reader finds the fields and their parts. -/
theorem field?_eq_some_iff {line name text : List Char} {argument : Option (List Char)} :
    field? line = some (name, argument, text) ↔
      ∃ inner rest, IsFieldLine line name inner rest ∧ argument = argumentIn inner ∧
        text = trimLeft rest := by
  constructor
  · exact isFieldLine_of_field?
  · rintro ⟨inner, rest, hline, rfl, rfl⟩
    exact hline.field?

/-- A heading begins with a letter, a field with a colon. -/
theorem IsFieldLine.not_isHeadingLine {line name inner rest : List Char}
    (h : IsFieldLine line name inner rest) (tag : String) : ¬ IsHeadingLine line tag := by
  rintro ⟨c, cs, hline, hc, -⟩
  rw [h.eq] at hline
  rw [← (List.cons.inj hline).1] at hc
  exact absurd hc (by decide)

/-! ### Entries -/

/-- A type in round brackets, if there is one. -/
def inBrackets : Option (List Char) → List Char
  | none => []
  | some type => '(' :: (type ++ [')'])

/-- A line `name (type): rest` with up to two stars in front, in which blanks may stand on either
side of the brackets. -/
structure IsEntryLine (line name : List Char) (type : Option (List Char)) (rest : List Char) :
    Prop where
  eq : ∃ stars gap gap', line
      = stars ++ (name ++ (gap ++ (inBrackets type ++ (gap' ++ ':' :: rest)))) ∧
    (stars = [] ∨ stars = ['*'] ∨ stars = ['*', '*']) ∧
    (∀ c ∈ gap, isBlank c = true) ∧ ∀ c ∈ gap', isBlank c = true
  name_ne_nil : name ≠ []
  isNamePart : ∀ c ∈ name, isWordChar c = true ∨ c = '.'
  ne_bracket : ∀ t ∈ type, ∀ c ∈ t, c ≠ ')'
  rest_head : ∀ c ∈ rest.head?, isBlank c = true

/-- A line without the stars in front of a name. -/
def unstarred : List Char → List Char
  | '*' :: '*' :: cs => cs
  | '*' :: cs => cs
  | cs => cs

theorem unstarred_append {stars cs : List Char}
    (hstars : stars = [] ∨ stars = ['*'] ∨ stars = ['*', '*']) (hcs : ∀ c ∈ cs.head?, c ≠ '*') :
    unstarred (stars ++ cs) = cs := by
  rcases cs with - | ⟨c, cs⟩
  · rcases hstars with rfl | rfl | rfl <;> rfl
  · have hc : c ≠ '*' := hcs c rfl
    rcases hstars with rfl | rfl | rfl
    · rw [List.nil_append]
      unfold unstarred
      split
      · next e => exact absurd (List.cons.inj e).1 hc
      · next e => exact absurd (List.cons.inj e).1 hc
      · rfl
    · rw [List.singleton_append]
      unfold unstarred
      split
      · next e => exact absurd (List.cons.inj (List.cons.inj e).2).1 hc
      · next e => exact (List.cons.inj e).2.symm
      · next e => exact absurd rfl (e _)
    · rfl

theorem exists_stars (line : List Char) :
    ∃ stars, line = stars ++ unstarred line ∧
      (stars = [] ∨ stars = ['*'] ∨ stars = ['*', '*']) := by
  unfold unstarred
  split
  · exact ⟨['*', '*'], rfl, by simp⟩
  · exact ⟨['*'], rfl, by simp⟩
  · exact ⟨[], rfl, by simp⟩

/-- No name goes on with what may stand behind it. -/
theorem not_isNamePart {c : Char} (h : isBlank c = true ∨ c = '(' ∨ c = ':') :
    (isWordChar c || c == '.') = false := by
  rcases h with h | rfl | rfl
  · have hdot : c ≠ '.' := by
      rintro rfl
      exact absurd h (by decide)
    rw [isWordChar_of_isBlank h, Bool.false_or, beq_eq_false_iff_ne]
    exact hdot
  · decide
  · decide

theorem bracketed?_inBrackets {type : List Char} (h : ∀ c ∈ type, c ≠ ')') (rest : List Char) :
    bracketed? (inBrackets (some type) ++ rest) = (some type, rest) := by
  obtain ⟨htake, hdrop⟩ := takeWhile_append_of_head (p := (· != ')')) (b := ')' :: rest)
    (fun c hc => by simpa using h c hc) (by simp)
  have happend : inBrackets (some type) ++ rest = '(' :: (type ++ ')' :: rest) := by
    simp [inBrackets]
  rw [happend, bracketed?, hdrop, htake]

theorem eq_of_bracketed? {cs rest : List Char} {type : Option (List Char)}
    (h : bracketed? cs = (type, rest)) :
    cs = inBrackets type ++ rest ∧ ∀ t ∈ type, ∀ c ∈ t, c ≠ ')' := by
  unfold bracketed? at h
  split at h
  · next ds =>
    have hds := List.takeWhile_append_dropWhile (p := (· != ')')) (l := ds)
    split at h
    · next c after hdrop =>
      have hc : c = ')' := by
        have hhead := List.head?_dropWhile_not (· != ')') ds
        rw [hdrop] at hhead
        simpa using hhead
      rw [hdrop, hc] at hds
      cases h
      refine ⟨?_, ?_⟩
      · have happend : inBrackets (some (ds.takeWhile (· != ')'))) ++ rest
            = '(' :: (ds.takeWhile (· != ')') ++ ')' :: rest) := by simp [inBrackets]
        rw [happend, hds]
      · rintro t ht d hd
        cases ht
        simpa using List.all_eq_true.mp List.all_takeWhile d hd
    · cases h
      exact ⟨rfl, by simp⟩
  · cases h
    exact ⟨rfl, by simp⟩

theorem entry?_eq (line : List Char) :
    entry? line = match (unstarred line).takeWhile (fun c => isWordChar c || c == '.') with
      | [] => none
      | name =>
        let (type, rest) := bracketed? (trimLeft
          ((unstarred line).dropWhile fun c => isWordChar c || c == '.'))
        match trimLeft rest with
        | ':' :: rest => (afterColon? rest).map (fun text => (name, type, text))
        | _ => none := rfl

/-- The reader finds the entries and their parts. -/
theorem entry?_eq_some_iff {line name text : List Char} {type : Option (List Char)} :
    entry? line = some (name, type, text) ↔
      ∃ rest, IsEntryLine line name type rest ∧ text = trimLeft rest := by
  have hpart : ∀ c : Char, (isWordChar c || c == '.') = true ↔ isWordChar c = true ∨ c = '.' := by
    intro c
    simp
  rw [entry?_eq]
  constructor
  · intro h
    have hunstarred := List.takeWhile_append_dropWhile
      (p := fun c => isWordChar c || c == '.') (l := unstarred line)
    obtain ⟨stars, hline, hstars⟩ := exists_stars line
    split at h
    · cases h
    · next hne =>
      rcases e : bracketed? (trimLeft
        ((unstarred line).dropWhile fun c => isWordChar c || c == '.')) with ⟨type', rest'⟩
      rw [e] at h
      simp only at h
      split at h
      · next rest hrest' =>
        obtain ⟨t, htext, he⟩ := Option.map_eq_some_iff.mp h
        obtain ⟨hrest, rfl⟩ := afterColon?_eq_some_iff.mp htext
        cases he
        obtain ⟨hbracket, htype⟩ := eq_of_bracketed? e
        obtain ⟨gap, hgap, hafter⟩ := exists_append_trimLeft
          ((unstarred line).dropWhile fun c => isWordChar c || c == '.')
        obtain ⟨gap', hgap', hcolon⟩ := exists_append_trimLeft rest'
        refine ⟨rest, ⟨⟨stars, gap, gap', ?_, hstars, hgap, hgap'⟩, hne, ?_, htype, hrest⟩, rfl⟩
        · rw [← hrest', ← hcolon, ← hbracket, ← hafter, hunstarred]
          exact hline
        · exact fun c hc => (hpart c).mp (List.all_eq_true.mp List.all_takeWhile c hc)
      · cases h
  · rintro ⟨rest, ⟨⟨stars, gap, gap', rfl, hstars, hgap, hgap'⟩, hne, hname, htype, hrest⟩, rfl⟩
    have hafter : afterColon? rest = some (trimLeft rest) :=
      afterColon?_eq_some_iff.mpr ⟨hrest, rfl⟩
    obtain ⟨n, ns, rfl⟩ := List.exists_cons_of_ne_nil hne
    have hstar : ∀ c ∈ ((n :: ns) ++ (gap ++ (inBrackets type ++ (gap' ++ ':' :: rest)))).head?,
        c ≠ '*' := by
      rintro c hc rfl
      have hn : n = '*' := by simpa using hc
      have hword : isWordChar '*' = false := by decide
      rcases hname n List.mem_cons_self with h | h
      · rw [hn, hword] at h
        cases h
      · rw [hn] at h
        exact absurd h (by decide)
    -- behind the name stands a blank, a bracket or the colon
    have hstop : ∀ c ∈ (gap ++ (inBrackets type ++ (gap' ++ ':' :: rest))).head?,
        (isWordChar c || c == '.') = false := by
      intro c hc
      apply not_isNamePart
      rcases gap with - | ⟨b, gap⟩
      · rcases type with - | type
        · rcases gap' with - | ⟨b, gap'⟩
          · exact .inr (.inr (Option.some.inj hc).symm)
          · exact .inl (Option.some.inj hc ▸ hgap' b List.mem_cons_self)
        · exact .inr (.inl (Option.some.inj hc).symm)
      · exact .inl (Option.some.inj hc ▸ hgap b List.mem_cons_self)
    obtain ⟨htake, hdrop⟩ :=
      takeWhile_append_of_head (fun c hc => (hpart c).mpr (hname c hc)) hstop
    have hcolon : trimLeft (gap' ++ ':' :: rest) = ':' :: rest := by
      rw [trimLeft_append_of_blank hgap']
      exact trimLeft_of_head (by simp; decide)
    rw [unstarred_append hstars hstar, htake, hdrop, trimLeft_append_of_blank hgap]
    rcases type with - | type
    · -- without brackets the colon is next
      show (match bracketed? (trimLeft (gap' ++ ':' :: rest)) with
        | (type, rest) => match trimLeft rest with
          | ':' :: rest => (afterColon? rest).map fun text => (n :: ns, type, text)
          | _ => none) = _
      have hagain : trimLeft (':' :: rest) = ':' :: rest := trimLeft_of_head (by simp; decide)
      have hnone : bracketed? (':' :: rest) = (none, ':' :: rest) := rfl
      simp only [hcolon, hnone, hagain, hafter, Option.map_some]
    · have hopen : trimLeft (inBrackets (some type) ++ (gap' ++ ':' :: rest))
          = inBrackets (some type) ++ (gap' ++ ':' :: rest) :=
        trimLeft_of_head (by simp [inBrackets]; decide)
      simp only [hopen, bracketed?_inBrackets (htype type rfl), hcolon, hafter, Option.map_some]

end CodeOutline.Docstring
