/-
CodeOutline/Proofs/Javadoc/Cleaning.lean

What cleaning does to the lines of a comment.

The body of a comment is what stands between its three opening characters and its closing, which
may be missing (`isBody_body`).  Of every line of the body the blanks in front, one star and the
space after the star are taken off (`IsUncovered`, which names one text for every line); the rest
is trimmed, or trimmed at its end only where a preformatted element is open (`cleaned_cleanFrom`).
So every line of the body has its own cleaned line, and cleaning touches nothing but blanks and one
star in front.

For a line that was written with a star in front the cleaned line is the text behind it, however
this begins itself (`dropStar_starred`).
-/
import CodeOutline.Javadoc
import CodeOutline.Proofs.Text.Lines

namespace CodeOutline.Javadoc

open Text

/-! ### Bodies -/

/-- The text `inner` stands between the three characters that open a comment and its closing, if it
has one. -/
def IsBody (comment inner : List Char) : Prop :=
  ∃ closing, comment = comment.take 3 ++ (inner ++ closing) ∧
    (closing = "*/".toList ∨ closing = [] ∧ ¬ "*/".toList <:+ inner)

theorem isBody_body (comment : List Char) : IsBody comment (body comment) := by
  have hcomment : comment.take 3 ++ comment.drop 3 = comment := List.take_append_drop 3 comment
  unfold body
  simp only
  split
  · -- the closing is there
    next rest hrest =>
    have hinner : comment.drop 3 = rest.reverse ++ "*/".toList := by
      rw [← List.reverse_reverse (comment.drop 3), hrest]
      simp
    refine ⟨"*/".toList, ?_, .inl rfl⟩
    rw [← hinner, hcomment]
  · next hopen =>
    refine ⟨[], ?_, .inr ⟨rfl, ?_⟩⟩
    · rw [List.append_nil, hcomment]
    · rintro ⟨front, hfront⟩
      apply hopen front.reverse
      rw [← hfront]
      simp

/-- The body of a comment that is closed. -/
theorem body_of_closed (inner : List Char) :
    body ("/**".toList ++ (inner ++ "*/".toList)) = inner := by
  have hdrop : ("/**".toList ++ (inner ++ "*/".toList)).drop 3 = inner ++ "*/".toList := rfl
  have hreverse : (inner ++ "*/".toList).reverse = '/' :: '*' :: inner.reverse := by simp
  rw [body, hdrop, hreverse]
  exact List.reverse_reverse inner

/-! ### Stars in front -/

/-- The line `raw` shows `text` when the blanks in front of it are taken off, and one star that
comes then, with the space after it. -/
def IsUncovered (raw text : List Char) : Prop :=
  ∃ front star, raw = front ++ (star ++ text) ∧ (∀ c ∈ front, isBlank c = true) ∧
    (star = [] ∧ (∀ c ∈ text.head?, isBlank c = false ∧ c ≠ '*') ∨
      star = ['*'] ∧ text.head? ≠ some ' ' ∨ star = ['*', ' '])

theorem isUncovered_dropStar (raw : List Char) : IsUncovered raw (dropStar raw) := by
  have hraw : raw = raw.takeWhile isBlank ++ trimLeft raw :=
    List.takeWhile_append_dropWhile.symm
  have hfront : ∀ c ∈ raw.takeWhile isBlank, isBlank c = true :=
    fun c hc => List.all_eq_true.mp List.all_takeWhile c hc
  refine ⟨raw.takeWhile isBlank, ?_⟩
  unfold dropStar
  split
  · -- a star and a space
    next rest e =>
    exact ⟨['*', ' '], hraw.trans (congrArg _ e), hfront, .inr (.inr rfl)⟩
  · -- a star alone
    next rest hspace e =>
    refine ⟨['*'], hraw.trans (congrArg _ e), hfront, .inr (.inl ⟨rfl, ?_⟩)⟩
    intro hhead
    obtain ⟨ds, rfl⟩ := List.head?_eq_some_iff.mp hhead
    exact hspace ds rfl
  · -- no star
    next hstar =>
    refine ⟨[], hraw, hfront, .inl ⟨rfl, fun c hc => ?_⟩⟩
    refine ⟨isBlank_of_head_trimLeft c hc, ?_⟩
    rintro rfl
    obtain ⟨ds, hds⟩ := List.head?_eq_some_iff.mp hc
    exact hstar ds hds

/-- What stands behind a star and a space shows as it is. -/
theorem dropStar_starred (text : List Char) : dropStar (' ' :: '*' :: ' ' :: text) = text := rfl

/-! ### Cleaned lines -/

/-- Lines and their cleaned lines, given whether a preformatted element is open before them. -/
inductive Cleaned : Bool → List (List Char) → List (List Char) → Prop
  | nil (pre : Bool) : Cleaned pre [] []
  | outside {raw text : List Char} {raws cleans : List (List Char)} :
      IsUncovered raw text → Cleaned (preAfter false (trimRight text)) raws cleans →
      Cleaned false (raw :: raws) (trim text :: cleans)
  | inside {raw text : List Char} {raws cleans : List (List Char)} :
      IsUncovered raw text → Cleaned (preAfter true (trimRight text)) raws cleans →
      Cleaned true (raw :: raws) (trimRight text :: cleans)

theorem cleaned_cleanFrom (pre : Bool) (raws : List (List Char)) :
    Cleaned pre raws (cleanFrom pre raws) := by
  induction raws generalizing pre with
  | nil => exact .nil pre
  | cons raw raws ih =>
    have hraw : IsUncovered raw (dropStar raw) := isUncovered_dropStar raw
    cases pre with
    | false =>
      show Cleaned false (raw :: raws) (trimLeft (trimRight (dropStar raw)) :: _)
      rw [trimLeft_trimRight]
      exact .outside hraw (ih _)
    | true => exact .inside hraw (ih _)

end CodeOutline.Javadoc
