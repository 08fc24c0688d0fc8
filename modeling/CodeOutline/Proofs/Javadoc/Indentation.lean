/-
CodeOutline/Proofs/Javadoc/Indentation.lean

What is left of the indentation of preformatted lines.

Whether a preformatted element is open before a line is told by the last tag of one in the lines
before it (`preAfter_eq`, `getElem?_cleanFrom`).  Outside of such an element lines are trimmed.
Inside, the text behind a star and a space is trimmed at its end only, so it keeps its indentation
(`leadingSpaces_trimRight`); but with no star in front of a line there is nothing that would stop
the blanks in front from being taken off, and the indentation is lost.

So the lines in preformatted elements keep their indentation relative to each other exactly if
those without a star begin at one column (`keepsIndentation_iff`), which they need not do
(`not_forall_keepsIndentation`).
-/
import CodeOutline.Proofs.Javadoc.Cleaning

namespace CodeOutline.Javadoc

open Text

/-! ### Open elements -/

/-- What happens right here to preformatted elements: one is opened (`true`), or closed, or none
is. -/
def preTag? (cs : List Char) : Option Bool :=
  if opensPre cs then some true else if closesPre cs then some false else none

/-- The tags of preformatted elements in a text, in order. -/
def preTags : List Char → List Bool
  | [] => []
  | c :: cs => (preTag? (c :: cs)).toList ++ preTags cs

/-- The last tag of a text decides, or what was before it. -/
theorem preAfter_eq (pre : Bool) (line : List Char) :
    preAfter pre line = (preTags line).getLast?.getD pre := by
  induction line generalizing pre with
  | nil => rfl
  | cons c cs ih =>
    have hstep : (if opensPre (c :: cs) then true else if closesPre (c :: cs) then false else pre)
        = (preTag? (c :: cs)).getD pre := by
      unfold preTag?
      split
      · rfl
      · split <;> rfl
    rw [preAfter, hstep, ih, preTags, List.getLast?_append]
    rcases (preTags cs).getLast? with - | b
    · cases preTag? (c :: cs) <;> rfl
    · rfl

/-- A line without what stands in front of its text, and without the blanks at its end. -/
def lineText (raw : List Char) : List Char := trimRight (dropStar raw)

/-- Whether a preformatted element is open after some lines, given whether one is open before
them. -/
def openAfter (pre : Bool) (raws : List (List Char)) : Bool :=
  (raws.flatMap (fun raw => preTags (lineText raw))).getLast?.getD pre

theorem openAfter_cons (pre : Bool) (raw : List Char) (raws : List (List Char)) :
    openAfter pre (raw :: raws) = openAfter (preAfter pre (lineText raw)) raws := by
  rw [openAfter, List.flatMap_cons, List.getLast?_append, preAfter_eq, openAfter]
  rcases (raws.flatMap (fun raw => preTags (lineText raw))).getLast? with - | b <;> rfl

/-- A line in its cleaned form, given whether a preformatted element is open before it. -/
def cleanLine (pre : Bool) (raw : List Char) : List Char :=
  if pre then lineText raw else trim (dropStar raw)

/-- Every line is cleaned by itself, once it is known what the lines before it have opened. -/
theorem getElem?_cleanFrom (pre : Bool) (raws : List (List Char)) (i : Nat) :
    (cleanFrom pre raws)[i]? = raws[i]?.map (cleanLine (openAfter pre (raws.take i))) := by
  induction raws generalizing pre i with
  | nil => rfl
  | cons raw raws ih =>
    cases i with
    | zero =>
      show some (if pre then lineText raw else trimLeft (lineText raw)) = _
      rw [List.getElem?_cons_zero, List.take_zero, Option.map_some, cleanLine]
      cases pre with
      | false => exact congrArg some (trimLeft_trimRight (dropStar raw))
      | true => rfl
    | succ i =>
      show (cleanFrom (preAfter pre (lineText raw)) raws)[i]? = _
      rw [ih, List.getElem?_cons_succ, List.take_succ_cons, openAfter_cons]

/-! ### Leading spaces -/

/-- The number of spaces at the beginning of a text. -/
def leadingSpaces (cs : List Char) : Nat := (cs.takeWhile (· == ' ')).length

theorem leadingSpaces_of_head {cs : List Char} (h : cs.head? ≠ some ' ') :
    leadingSpaces cs = 0 := by
  cases cs with
  | nil => rfl
  | cons c cs =>
    have hc : (c == ' ') = false := by simpa using h
    simp [leadingSpaces, hc]

/-- A text that is trimmed begins with no space. -/
theorem leadingSpaces_trim (cs : List Char) : leadingSpaces (trim cs) = 0 := by
  refine leadingSpaces_of_head fun h => ?_
  have hblank := isBlank_of_head_of_trim (trim_trim cs) ' ' h
  cases hblank

theorem takeWhile_append_of_not (p : Char → Bool) {c : Char} (hc : p c = false)
    (front tail : List Char) : (front ++ c :: tail).takeWhile p = front.takeWhile p := by
  induction front with
  | nil => simp [hc]
  | cons d front ih => rw [List.cons_append, List.takeWhile_cons, List.takeWhile_cons, ih]

/-- Trimming at the end leaves the spaces at the beginning alone, unless nothing else is there. -/
theorem leadingSpaces_trimRight {cs : List Char} (h : cs.all isBlank = false) :
    leadingSpaces (trimRight cs) = leadingSpaces cs := by
  obtain ⟨front, hfront, hcs⟩ := exists_append_trimLeft cs
  rcases e : trimLeft cs with - | ⟨c, rest⟩
  · rw [trimLeft_eq_nil_iff, h] at e
    cases e
  · have hc : isBlank c = false := isBlank_of_head_trimLeft c (by rw [e]; rfl)
    have hspace : (c == ' ') = false := by
      rw [beq_eq_false_iff_ne]
      rintro rfl
      cases hc
    rw [hcs, e, trimRight_append_cons hc, leadingSpaces, leadingSpaces,
      takeWhile_append_of_not (· == ' ') hspace, takeWhile_append_of_not (· == ' ') hspace]

/-! ### Lines with a star and without one -/

/-- A line with a star and a space in front of a text. -/
def IsStarred (raw text : List Char) : Prop :=
  ∃ front, raw = front ++ '*' :: ' ' :: text ∧ ∀ c ∈ front, isBlank c = true

/-- A line that does not begin with a star. -/
def IsStarless (raw : List Char) : Prop := (trimLeft raw).head? ≠ some '*'

theorem IsStarred.dropStar_eq {raw text : List Char} (h : IsStarred raw text) :
    dropStar raw = text := by
  obtain ⟨front, rfl, hfront⟩ := h
  rw [dropStar, trimLeft_append_of_blank hfront]
  rfl

theorem IsStarless.dropStar_eq {raw : List Char} (h : IsStarless raw) :
    dropStar raw = trimLeft raw := by
  unfold dropStar
  split
  · next e => simp [IsStarless, e] at h
  · next e => simp [IsStarless, e] at h
  · rfl

/-- In a preformatted element the text behind a star is trimmed at its end, and a line without a
star at both ends. -/
theorem IsStarred.cleanLine_eq {raw text : List Char} (h : IsStarred raw text) :
    cleanLine true raw = trimRight text := by
  rw [cleanLine, if_pos rfl, lineText, h.dropStar_eq]

theorem IsStarless.cleanLine_eq {raw : List Char} (h : IsStarless raw) :
    cleanLine true raw = trim raw := by
  rw [cleanLine, if_pos rfl, lineText, h.dropStar_eq, trim]

/-! ### Comments -/

/-- The lines between the opening and the closing of a comment. -/
def rawLines (comment : String) : List (List Char) := splitLines (body comment.toList)

/-- Whether a preformatted element is open in a comment before the line with a number. -/
def isPreformatted (comment : String) (i : Nat) : Bool :=
  openAfter false ((rawLines comment).take i)

theorem getElem?_cleanLines (comment : String) (i : Nat) :
    (cleanLines comment)[i]? =
      (rawLines comment)[i]?.map (cleanLine (isPreformatted comment i)) :=
  getElem?_cleanFrom false (rawLines comment) i

/-- A comment has in a preformatted element the line `raw`, which is cleaned to `clean`. -/
def HasPreformatted (comment : String) (raw clean : List Char) : Prop :=
  ∃ i, isPreformatted comment i = true ∧ (rawLines comment)[i]? = some raw ∧
    (cleanLines comment)[i]? = some clean

theorem HasPreformatted.clean_eq {comment : String} {raw clean : List Char}
    (h : HasPreformatted comment raw clean) : clean = cleanLine true raw := by
  obtain ⟨i, hpre, hraw, hclean⟩ := h
  rw [getElem?_cleanLines, hraw, hpre] at hclean
  exact (Option.some.inj hclean).symm

/-- Two lines that are indented by `a` and `b` spaces are indented as much relative to each other in
their cleaned forms. -/
def SameStep (a b : Nat) (clean clean' : List Char) : Prop :=
  (leadingSpaces clean : Int) - leadingSpaces clean' = a - b

/-- The lines in preformatted elements that are not blank keep their indentation relative to each
other: those with a star and a space in front, counted from there, and those without a star. -/
def KeepsIndentation (comment : String) : Prop :=
  ∀ raw clean raw' clean', HasPreformatted comment raw clean → HasPreformatted comment raw' clean' →
    (∀ text text', IsStarred raw text → IsStarred raw' text' →
      text.all isBlank = false → text'.all isBlank = false →
      SameStep (leadingSpaces text) (leadingSpaces text') clean clean') ∧
    (IsStarless raw → IsStarless raw' → raw.all isBlank = false → raw'.all isBlank = false →
      SameStep (leadingSpaces raw) (leadingSpaces raw') clean clean')

/-- A preformatted line with a star keeps the indentation of its text, and one without a star loses
its own.  So relative to each other the lines of a comment keep it exactly if all preformatted lines
without a star are indented alike.  All other lines are trimmed. -/
theorem keepsIndentation_iff (comment : String) :
    (KeepsIndentation comment ↔
      ∀ raw clean raw' clean', HasPreformatted comment raw clean →
        HasPreformatted comment raw' clean' → IsStarless raw → IsStarless raw' →
        raw.all isBlank = false → raw'.all isBlank = false →
        leadingSpaces raw = leadingSpaces raw') ∧
    (∀ raw clean, HasPreformatted comment raw clean →
      (∀ text, IsStarred raw text → clean = trimRight text) ∧
      (IsStarless raw → clean = trim raw)) ∧
    ∀ i raw, isPreformatted comment i = false → (rawLines comment)[i]? = some raw →
      (cleanLines comment)[i]? = some (trim (dropStar raw)) := by
  have hstarred : ∀ {raw clean text}, HasPreformatted comment raw clean → IsStarred raw text →
      clean = trimRight text := fun h htext => h.clean_eq.trans htext.cleanLine_eq
  have hstarless : ∀ {raw clean}, HasPreformatted comment raw clean → IsStarless raw →
      clean = trim raw := fun h hraw => h.clean_eq.trans hraw.cleanLine_eq
  refine ⟨⟨?_, ?_⟩, fun raw clean h => ⟨fun text => hstarred h, hstarless h⟩, ?_⟩
  · intro hkeeps raw clean raw' clean' h h' hraw hraw' hblank hblank'
    have hstep := (hkeeps raw clean raw' clean' h h').2 hraw hraw' hblank hblank'
    rw [SameStep, hstarless h hraw, hstarless h' hraw', leadingSpaces_trim, leadingSpaces_trim]
      at hstep
    omega
  · intro halike raw clean raw' clean' h h'
    constructor
    · intro text text' htext htext' hblank hblank'
      rw [SameStep, hstarred h htext, hstarred h' htext', leadingSpaces_trimRight hblank,
        leadingSpaces_trimRight hblank']
    · intro hraw hraw' hblank hblank'
      rw [SameStep, hstarless h hraw, hstarless h' hraw', leadingSpaces_trim, leadingSpaces_trim,
        halike raw clean raw' clean' h h' hraw hraw' hblank hblank', Int.sub_self, Int.sub_self]
  · intro i raw hpre hraw
    rw [getElem?_cleanLines, hraw, hpre]
    rfl

/-- A comment without stars, with a line that is indented below one that is not. -/
def indented : String := "/**\n<pre>\na\n  b\n</pre>\n*/"

/-- Both lines of the preformatted element begin at the margin when they are cleaned. -/
theorem not_forall_keepsIndentation : ¬ ∀ comment, KeepsIndentation comment := by
  intro h
  have hfirst : HasPreformatted indented ['a'] ['a'] := ⟨2, by decide +kernel⟩
  have hsecond : HasPreformatted indented [' ', ' ', 'b'] ['b'] := ⟨3, by decide +kernel⟩
  have hstarless : IsStarless ['a'] ∧ IsStarless [' ', ' ', 'b'] := by
    unfold IsStarless
    decide
  have hstep := (h indented _ _ _ _ hfirst hsecond).2 hstarless.1 hstarless.2 rfl rfl
  rw [SameStep] at hstep
  exact absurd hstep (by decide)

end CodeOutline.Javadoc
