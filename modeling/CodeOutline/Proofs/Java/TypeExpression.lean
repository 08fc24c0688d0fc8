/-
CodeOutline/Proofs/Java/TypeExpression.lean

Type expressions, and what is left of them without their arguments.

A type expression is a row of identifiers with dots between them, of which each may be followed by
arguments in angle brackets.  An argument is a type expression again, maybe of arrays, or a
wildcard, maybe with a bound; so brackets are nested to any depth.  `TypeExpression.text` writes
an expression.

Erasing goes through a text once and counts the brackets that are open.  The invariant is that
the text of an argument leaves the counter as it is and nothing of it is kept while a bracket is
open (`Silent`).  It holds of texts without brackets, of two such texts in a row and of such a
text in brackets, hence of all arguments (`silent_argument`).  Outside all brackets only the
identifiers and the dots between them are left (`eraseFrom_text`).

Blanks are never kept and count for nothing, so a name is erased like any other with the same
characters that are no blanks (`eraseFrom_withoutBlanks`).  The main statement puts this together
(`erased_typeExpression`).
-/
import CodeOutline.Proofs.Java.TypeName

namespace CodeOutline.Java

open Text

/-! ### Expressions -/

/-- An identifier, as far as types are concerned: a text without dots, brackets and blanks. -/
structure Identifier where
  text : List Char
  plain : ∀ c ∈ text, c ≠ '.' ∧ c ≠ '<' ∧ c ≠ '>' ∧ isBlank c = false

/-- The side from which a wildcard is bounded. -/
inductive Bound where
  | upper
  | lower

/-- The word that introduces a bound. -/
def Bound.word : Bound → List Char
  | .upper => ['e', 'x', 't', 'e', 'n', 'd', 's']
  | .lower => ['s', 'u', 'p', 'e', 'r']

mutual

/-- Segments with dots between them. -/
inductive TypeExpression where
  | single (s : Segment)
  | member (outer : TypeExpression) (s : Segment)

/-- An identifier, alone or with arguments. -/
inductive Segment where
  | bare (name : Identifier)
  | generic (name : Identifier) (arguments : List TypeArgument)

/-- What stands between the brackets of a segment, once or with commas between. -/
inductive TypeArgument where
  | type (t : TypeExpression) (dimensions : Nat)
  | wildcard
  | bounded (b : Bound) (t : TypeExpression) (dimensions : Nat)

end

/-- The identifier of a segment. -/
def Segment.name : Segment → Identifier
  | .bare name => name
  | .generic name _ => name

/-- The identifiers outside all brackets, in order. -/
def TypeExpression.names : TypeExpression → List Identifier
  | .single s => [s.name]
  | .member outer s => outer.names ++ [s.name]

/-- The last identifier outside all brackets. -/
def TypeExpression.lastName : TypeExpression → Identifier
  | .single s => s.name
  | .member _ s => s.name

/-- Identifiers with dots between them. -/
def dottedText (names : List Identifier) : List Char :=
  ['.'].intercalate (names.map Identifier.text)

/-- The brackets of an array with some dimensions. -/
def arrayBrackets : Nat → List Char
  | 0 => []
  | n + 1 => '[' :: ']' :: arrayBrackets n

mutual

/-- The text of a type expression. -/
def TypeExpression.text : TypeExpression → List Char
  | .single s => s.text
  | .member outer s => outer.text ++ '.' :: s.text

/-- The text of a segment. -/
def Segment.text : Segment → List Char
  | .bare name => name.text
  | .generic name arguments => name.text ++ '<' :: (argumentsText arguments ++ ['>'])

/-- The text of an argument. -/
def TypeArgument.text : TypeArgument → List Char
  | .type t dimensions => t.text ++ arrayBrackets dimensions
  | .wildcard => ['?']
  | .bounded b t dimensions =>
    '?' :: ' ' :: (b.word ++ ' ' :: (t.text ++ arrayBrackets dimensions))

/-- The text of arguments with commas between them. -/
def argumentsText : List TypeArgument → List Char
  | [] => []
  | [a] => a.text
  | a :: b :: as => a.text ++ ',' :: ' ' :: argumentsText (b :: as)

end

/-! ### Inside brackets -/

/-- A text of which nothing is kept while a bracket is open, and which leaves as many open as it
finds. -/
def Silent (cs : List Char) : Prop :=
  ∀ depth rest, eraseFrom (depth + 1) (cs ++ rest) = eraseFrom (depth + 1) rest

/-- A text without brackets is silent. -/
theorem silent_of_unbracketed {cs : List Char} (h : ∀ c ∈ cs, c ≠ '<' ∧ c ≠ '>') : Silent cs := by
  intro depth rest
  induction cs with
  | nil => rfl
  | cons c cs ih =>
    obtain ⟨⟨hopen, hclose⟩, hcs⟩ := List.forall_mem_cons.mp h
    rw [List.cons_append, eraseFrom, if_neg hopen, if_neg hclose, if_neg (by simp), ih hcs]

theorem Silent.append {a b : List Char} (ha : Silent a) (hb : Silent b) : Silent (a ++ b) := by
  intro depth rest
  rw [List.append_assoc, ha, hb]

theorem Silent.cons {c : Char} {cs : List Char} (hc : c ≠ '<' ∧ c ≠ '>') (h : Silent cs) :
    Silent (c :: cs) :=
  have hone : Silent [c] := silent_of_unbracketed (by simpa using hc)
  hone.append h

/-- A pair of brackets around a silent text: wherever it stands, it says nothing. -/
theorem Silent.eraseFrom_brackets {cs : List Char} (h : Silent cs) (depth : Nat)
    (rest : List Char) :
    eraseFrom depth ('<' :: (cs ++ ['>']) ++ rest) = eraseFrom depth rest := by
  have hclose : eraseFrom (depth + 1) ('>' :: rest) = eraseFrom depth rest := by
    rw [eraseFrom, if_neg (by decide), if_pos rfl, Nat.add_sub_cancel]
  rw [List.cons_append, List.append_assoc, eraseFrom, if_pos rfl, h, List.singleton_append, hclose]

theorem Silent.brackets {cs : List Char} (h : Silent cs) : Silent ('<' :: (cs ++ ['>'])) :=
  fun depth rest => h.eraseFrom_brackets (depth + 1) rest

theorem silent_identifier (name : Identifier) : Silent name.text :=
  silent_of_unbracketed fun c hc => ⟨(name.plain c hc).2.1, (name.plain c hc).2.2.1⟩

theorem silent_arrayBrackets (n : Nat) : Silent (arrayBrackets n) := by
  induction n with
  | zero => exact fun _ _ => rfl
  | succ n ih => exact .cons (by decide) (.cons (by decide) ih)

theorem silent_word (b : Bound) : Silent b.word := by
  apply silent_of_unbracketed
  cases b <;> simp [Bound.word]

mutual

theorem silent_typeExpression : ∀ t : TypeExpression, Silent t.text
  | .single s => silent_segment s
  | .member outer s => (silent_typeExpression outer).append (.cons (by decide) (silent_segment s))

theorem silent_segment : ∀ s : Segment, Silent s.text
  | .bare name => silent_identifier name
  | .generic name arguments => (silent_identifier name).append (silent_arguments arguments).brackets

theorem silent_argument : ∀ a : TypeArgument, Silent a.text
  | .type t dimensions => (silent_typeExpression t).append (silent_arrayBrackets dimensions)
  | .wildcard => silent_of_unbracketed (by simp [TypeArgument.text])
  | .bounded b t dimensions =>
    .cons (by decide) (.cons (by decide) ((silent_word b).append
      (.cons (by decide) ((silent_typeExpression t).append (silent_arrayBrackets dimensions)))))

theorem silent_arguments : ∀ as : List TypeArgument, Silent (argumentsText as)
  | [] => fun _ _ => rfl
  | [a] => silent_argument a
  | a :: b :: as =>
    (silent_argument a).append (.cons (by decide) (.cons (by decide) (silent_arguments (b :: as))))

end

/-! ### Outside all brackets -/

/-- What holds neither brackets nor blanks is kept outside all brackets. -/
theorem eraseFrom_append_of_plain {cs : List Char}
    (h : ∀ c ∈ cs, c ≠ '<' ∧ c ≠ '>' ∧ isBlank c = false) (rest : List Char) :
    eraseFrom 0 (cs ++ rest) = cs ++ eraseFrom 0 rest := by
  induction cs with
  | nil => rfl
  | cons c cs ih =>
    obtain ⟨⟨hopen, hclose, hblank⟩, hcs⟩ := List.forall_mem_cons.mp h
    rw [List.cons_append, eraseFrom, if_neg hopen, if_neg hclose, if_pos (by simp [hblank]),
      ih hcs, List.cons_append]

theorem Segment.eraseFrom_text (s : Segment) (rest : List Char) :
    eraseFrom 0 (s.text ++ rest) = s.name.text ++ eraseFrom 0 rest := by
  have hname : ∀ rest, eraseFrom 0 (s.name.text ++ rest) = s.name.text ++ eraseFrom 0 rest :=
    eraseFrom_append_of_plain fun c hc => (s.name.plain c hc).2
  cases s with
  | bare name => exact hname rest
  | generic name arguments =>
    rw [Segment.text, List.append_assoc]
    exact (hname _).trans
      (congrArg _ ((silent_arguments arguments).eraseFrom_brackets 0 rest))

theorem TypeExpression.names_ne_nil (t : TypeExpression) : t.names ≠ [] := by
  cases t <;> simp [names]

theorem dottedText_concat {names : List Identifier} (h : names ≠ []) (name : Identifier) :
    dottedText (names ++ [name]) = dottedText names ++ '.' :: name.text := by
  have htexts : names.map Identifier.text ≠ [] := by simpa using h
  rw [dottedText, List.map_append, List.map_singleton, intercalate_concat_of_ne_nil _ htexts,
    dottedText, List.singleton_append]

/-- Of a type expression the identifiers outside all brackets are left, with dots between them. -/
theorem TypeExpression.eraseFrom_text (t : TypeExpression) (rest : List Char) :
    eraseFrom 0 (t.text ++ rest) = dottedText t.names ++ eraseFrom 0 rest := by
  cases t with
  | single s =>
    rw [text, s.eraseFrom_text, names]
    simp [dottedText, List.intercalate]
  | member outer s =>
    have hplain : ∀ c ∈ ['.'], c ≠ '<' ∧ c ≠ '>' ∧ isBlank c = false :=
      List.forall_mem_singleton.mpr (by decide)
    have hdot : eraseFrom 0 ('.' :: (s.text ++ rest)) = '.' :: eraseFrom 0 (s.text ++ rest) :=
      eraseFrom_append_of_plain hplain _
    rw [text, List.append_assoc, outer.eraseFrom_text, List.cons_append, hdot, s.eraseFrom_text,
      names, dottedText_concat outer.names_ne_nil, List.append_assoc, List.cons_append]

/-! ### The last identifier -/

theorem Identifier.dot_notMem (name : Identifier) : '.' ∉ name.text :=
  fun h => (name.plain '.' h).1 rfl

theorem TypeExpression.lastSegment_names (t : TypeExpression) :
    lastSegment (dottedText t.names) = t.lastName.text := by
  cases t with
  | single s =>
    have hone : dottedText [s.name] = s.name.text := List.intercalate_singleton
    rw [names, hone, lastSegment_of_notMem s.name.dot_notMem, lastName]
  | member outer s =>
    rw [names, dottedText_concat outer.names_ne_nil, lastSegment_append_dot,
      lastSegment_of_notMem s.name.dot_notMem, lastName]

/-! ### Blanks -/

/-- Blanks are neither kept nor counted. -/
theorem eraseFrom_withoutBlanks (depth : Nat) (cs : List Char) :
    eraseFrom depth (withoutBlanks cs) = eraseFrom depth cs := by
  induction cs generalizing depth with
  | nil => rfl
  | cons c cs ih =>
    by_cases hc : isBlank c = true
    · -- a blank is no bracket
      have hopen : c ≠ '<' := by rintro rfl; exact absurd hc (by decide)
      have hclose : c ≠ '>' := by rintro rfl; exact absurd hc (by decide)
      have hskip : withoutBlanks (c :: cs) = withoutBlanks cs := by simp [withoutBlanks, hc]
      rw [hskip, ih, eraseFrom, if_neg hopen, if_neg hclose, if_neg (by simp [hc])]
    · have hkeep : withoutBlanks (c :: cs) = c :: withoutBlanks cs := by simp [withoutBlanks, hc]
      rw [hkeep, eraseFrom, eraseFrom, ih, ih, ih]

/-- Names with the same characters that are no blanks are the same without their arguments. -/
theorem eraseArguments_congr {a b : List Char} (h : withoutBlanks a = withoutBlanks b) :
    eraseArguments a = eraseArguments b := by
  rw [eraseArguments, ← eraseFrom_withoutBlanks, h, eraseFrom_withoutBlanks, eraseArguments]

/-! ### Any name, and type expressions -/

/-- What is left of any text without its arguments holds no brackets and no blanks; erasing once
more changes nothing, and neither do blanks, wherever they stand; the last part is that of what is
left, and holds no dot.  Of a type expression, in any spacing, exactly the identifiers outside all
brackets are left, with dots between them, and the last part is the last of them. -/
theorem erased_typeExpression (name : List Char) :
    (∀ c ∈ eraseArguments name, c ≠ '<' ∧ c ≠ '>' ∧ isBlank c = false) ∧
    eraseArguments (eraseArguments name) = eraseArguments name ∧
    (∀ spaced, withoutBlanks spaced = withoutBlanks name →
      eraseArguments spaced = eraseArguments name) ∧
    simpleName (eraseArguments name) = simpleName name ∧ '.' ∉ simpleName name ∧
    ∀ t : TypeExpression, withoutBlanks name = withoutBlanks t.text →
      eraseArguments name = dottedText t.names ∧ simpleName name = t.lastName.text := by
  refine ⟨fun c hc => of_mem_eraseFrom hc, eraseArguments_idem name,
    fun spaced h => eraseArguments_congr h, simpleName_eraseArguments name,
    (isLastPart_lastSegment _).1, fun t h => ?_⟩
  have herased : eraseArguments name = dottedText t.names := by
    have htext := t.eraseFrom_text []
    rw [List.append_nil, eraseFrom, List.append_nil] at htext
    exact (eraseArguments_congr h).trans htext
  refine ⟨herased, ?_⟩
  rw [simpleName, herased, t.lastSegment_names]

/-- An identifier of letters of the Latin alphabet. -/
def Identifier.ofLetters (s : String) (h : s.toList.all Char.isAlpha = true) : Identifier where
  text := s.toList
  plain := by
    intro c hc
    have hletter := List.all_eq_true.mp h c hc
    refine ⟨?_, ?_, ?_, isBlank_of_isAlpha hletter⟩ <;>
    · rintro rfl
      exact absurd hletter (by decide)

/-- An entry of a map from texts to lists of arrays. -/
def entryOfMap : TypeExpression :=
  .member
    (.single (.generic (.ofLetters "Map" rfl)
      [.type (.single (.bare (.ofLetters "String" rfl))) 0,
        .bounded .upper (.single (.generic (.ofLetters "List" rfl)
          [.type (.single (.bare (.ofLetters "int" rfl))) 2, .wildcard])) 1]))
    (.bare (.ofLetters "Entry" rfl))

theorem erased_typeExpression_entryOfMap :
    withoutBlanks "Map < String,? extends List<int [][],?>[]>\n  .Entry".toList
      = withoutBlanks entryOfMap.text ∧
    eraseArguments "Map < String,? extends List<int [][],?>[]>\n  .Entry".toList
      = "Map.Entry".toList ∧
    simpleName "Map < String,? extends List<int [][],?>[]>\n  .Entry".toList = "Entry".toList := by
  have hspaced : withoutBlanks "Map < String,? extends List<int [][],?>[]>\n  .Entry".toList
      = withoutBlanks entryOfMap.text := by decide
  exact ⟨hspaced, (erased_typeExpression _).2.2.2.2.2 entryOfMap hspaced⟩

end CodeOutline.Java
