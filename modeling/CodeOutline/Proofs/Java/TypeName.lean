/-
CodeOutline/Proofs/Java/TypeName.lean

Names of types without arguments.

A name without its arguments holds no brackets and no blanks, so leaving them out once more changes
nothing (`eraseArguments_idem`), and its last part is blank only if it is empty
(`allBlank_simpleName`).  The last part is what stands after the last dot
(`isLastPart_lastSegment`).
-/
import CodeOutline.Java.TypeName
import CodeOutline.Proofs.Text.Lines

namespace CodeOutline.Java

open Text

theorem of_mem_eraseFrom {c : Char} {cs : List Char} {depth : Nat} (h : c ∈ eraseFrom depth cs) :
    c ≠ '<' ∧ c ≠ '>' ∧ isBlank c = false := by
  induction cs generalizing depth with
  | nil => cases h
  | cons d cs ih =>
    rw [eraseFrom] at h
    -- brackets are left out, and other characters if they stand inside some or are blanks
    split at h
    · exact ih h
    · next hopen =>
      split at h
      · exact ih h
      · next hclose =>
        split at h
        · next hd =>
          rcases List.mem_cons.mp h with rfl | h
          · exact ⟨hopen, hclose, by simpa using (Bool.and_eq_true_iff.mp hd).2⟩
          · exact ih h
        · exact ih h

theorem eraseFrom_eq_self {cs : List Char}
    (h : ∀ c ∈ cs, c ≠ '<' ∧ c ≠ '>' ∧ isBlank c = false) : eraseFrom 0 cs = cs := by
  induction cs with
  | nil => rfl
  | cons c cs ih =>
    obtain ⟨hopen, hclose, hblank⟩ := h c List.mem_cons_self
    rw [eraseFrom, if_neg hopen, if_neg hclose, if_pos (by simp [hblank]),
      ih fun d hd => h d (List.mem_cons_of_mem _ hd)]

theorem eraseArguments_idem (name : List Char) :
    eraseArguments (eraseArguments name) = eraseArguments name :=
  eraseFrom_eq_self fun _ hc => of_mem_eraseFrom hc

theorem simpleName_eraseArguments (name : List Char) :
    simpleName (eraseArguments name) = simpleName name := by
  rw [simpleName, eraseArguments_idem, simpleName]

theorem mem_of_mem_lastSegment {c : Char} {name : List Char} (h : c ∈ lastSegment name) :
    c ∈ name := by
  rw [lastSegment, List.getLastD_eq_getLast?,
    List.getLast?_eq_some_getLast (splitOn_ne_nil '.' name), Option.getD_some] at h
  exact mem_of_mem_splitOn (List.getLast_mem _) h

/-- A text is the last part of another: it holds no dot, and what stands before it ends with one if
there is anything. -/
def IsLastPart (part name : List Char) : Prop :=
  '.' ∉ part ∧ (name = part ∨ ∃ front, name = front ++ '.' :: part)

theorem lastSegment_of_notMem {name : List Char} (h : '.' ∉ name) : lastSegment name = name := by
  rw [lastSegment, splitOn_of_notMem h]
  rfl

theorem lastSegment_append_dot (front back : List Char) :
    lastSegment (front ++ '.' :: back) = lastSegment back := by
  rw [lastSegment, lastSegment, splitOn_append_cons, List.getLastD_eq_getLast?,
    List.getLastD_eq_getLast?, List.getLast?_append,
    List.getLast?_eq_some_getLast (splitOn_ne_nil '.' back), Option.some_or]

theorem isLastPart_lastSegment (name : List Char) : IsLastPart (lastSegment name) name := by
  induction name with
  | nil => exact ⟨by simp [lastSegment, splitOn], .inl rfl⟩
  | cons c cs ih =>
    obtain ⟨hdot, hcs⟩ := ih
    rcases hcs with hcs | ⟨front, hcs⟩
    · rw [← hcs] at hdot
      by_cases hc : c = '.'
      · -- the only dot is the first character
        rw [hc, ← List.nil_append ('.' :: cs), lastSegment_append_dot, lastSegment_of_notMem hdot]
        exact ⟨hdot, .inr ⟨[], rfl⟩⟩
      · have hname : '.' ∉ c :: cs := by simp [Ne.symm hc, hdot]
        rw [lastSegment_of_notMem hname]
        exact ⟨hname, .inl rfl⟩
    · -- a character in front of the last dot does not matter
      have hlast : lastSegment (c :: cs) = lastSegment cs := by
        rw [hcs, ← List.cons_append, lastSegment_append_dot, lastSegment_append_dot]
      rw [hlast]
      exact ⟨hdot, .inr ⟨c :: front, by rw [List.cons_append, ← hcs]⟩⟩

/-- The last part of a type name is blank only if it is empty. -/
theorem allBlank_simpleName {name : List Char} (h : simpleName name ≠ []) :
    allBlank (String.ofList (simpleName name)) = false := by
  obtain ⟨c, hc⟩ := List.exists_mem_of_ne_nil _ h
  rw [allBlank_ofList, List.all_eq_false]
  exact ⟨c, hc, by simp [(of_mem_eraseFrom (mem_of_mem_lastSegment hc)).2.2]⟩

end CodeOutline.Java
