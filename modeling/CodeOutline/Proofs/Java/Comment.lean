/-
CodeOutline/Proofs/Java/Comment.lean

Comments can always be read.

The name of a block tag begins with a letter, so it is never blank and no tag of a comment is
refused; reading a comment has a result (`exists_parse`), which stands where the comment does.
-/
import CodeOutline.Javadoc
import CodeOutline.Proofs.Entity.Building
import CodeOutline.Proofs.Text.Blank

namespace CodeOutline.Javadoc

open Outcome Text

/-! ### Tags -/

/-- A block tag has a name that begins with a letter. -/
theorem exists_alpha_of_blockTag? {line name text : List Char}
    (h : blockTag? line = some (name, text)) : ∃ c cs, name = c :: cs ∧ c.isAlpha = true := by
  unfold blockTag? at h
  split at h
  · next c cs =>
    simp only at h
    split at h
    · next hc =>
      split at h
      · -- the name goes to the end of the line
        simp only [Option.some.injEq, Prod.mk.injEq] at h
        exact ⟨c, _, h.1.symm, hc⟩
      · -- the name ends at a blank
        split at h
        · simp only [Option.some.injEq, Prod.mk.injEq] at h
          exact ⟨c, _, h.1.symm, hc⟩
        · cases h
    · cases h
  · cases h

theorem exists_alpha_of_mem_group (ls : List (List Char)) :
    ∀ t ∈ (group ls).2, ∃ c cs, t.1 = c :: cs ∧ c.isAlpha = true := by
  induction ls with
  | nil => simp [group]
  | cons l ls ih =>
    intro t ht
    rw [group] at ht
    rcases e : blockTag? l with - | ⟨name, text⟩
    · -- the line goes to the text that stands before the tags
      rw [e] at ht
      exact ih t ht
    · -- the line opens a tag
      rw [e] at ht
      rcases List.mem_cons.mp ht with rfl | ht
      · exact exists_alpha_of_blockTag? e
      · exact ih t ht

/-- A tag is refused only for a blank name. -/
theorem exists_tag {name content : String} (h : allBlank name = false) :
    ∃ t, tag name content = .ok t := by
  unfold tag
  split
  · split
    · exact ⟨_, DocumentationTag.make_eq_ok_iff.mpr ⟨h, rfl⟩⟩
    · exact ⟨_, DocumentationTag.make_eq_ok_iff.mpr ⟨h, rfl⟩⟩
  · exact ⟨_, DocumentationTag.make_eq_ok_iff.mpr ⟨h, rfl⟩⟩

/-! ### Comments -/

/-- A comment can always be read. -/
theorem exists_parse (comment : String) (position : Option Position) :
    ∃ d, parse comment position = .ok d := by
  have htags : ∃ tags, (group (cleanLines comment)).2.mapM
      (fun t => tag (String.ofList t.1) (String.ofList (joinTrimmed t.2))) = .ok tags := by
    apply exists_mapM_eq_ok
    intro t ht
    obtain ⟨c, cs, hname, hc⟩ := exists_alpha_of_mem_group _ t ht
    apply exists_tag
    rw [hname, allBlank_ofList]
    simp [isBlank_of_isAlpha hc]
  obtain ⟨tags, htags⟩ := htags
  simp only [parse, htags, ok_bind, Documentation.make_eq_ok]
  exact ⟨_, rfl⟩

/-- What is read off a comment stands where the comment does. -/
theorem position_of_parse {comment : String} {position : Option Position} {d : Documentation}
    (h : parse comment position = .ok d) : d.position = position := by
  simp only [parse, bind_eq_ok_iff, Documentation.make_eq_ok, Except.ok.injEq] at h
  obtain ⟨tags, -, rfl⟩ := h
  rfl

end CodeOutline.Javadoc
