/-
CodeOutline/Proofs/Tags.lean

What the tags of documentation look like.

The name of a tag is a word of its language: letters, digits and a few marks, none of which is of
account for markup.  The value of a tag is trimmed (`DocumentationTag.Tidy`).  All documentation in
the unit of a file is read off a comment or a docstring, so all its tags are of this kind
(`Workspace.tidy_of_unitOf?`).
-/
import CodeOutline.Proofs.Analysis
import CodeOutline.Proofs.Docstring
import CodeOutline.Proofs.Java.DocumentationBlocks
import CodeOutline.Proofs.Text.Markup

namespace CodeOutline

open Outcome Text

/-- A tag with nothing of markup in its name and no blanks at the end of its value. -/
structure DocumentationTag.Tidy (t : DocumentationTag) : Prop where
  name : Markup.Unmarked t.name.shown.toList
  value : trimRight t.value.shown.toList = t.value.shown.toList

/-- Documentation whose tags are tidy. -/
def Documentation.Tidy (d : Documentation) : Prop := ∀ t ∈ d.tags, t.Tidy

/-- All documentation of a unit is tidy. -/
structure CodeUnit.Tidy (u : CodeUnit) : Prop where
  unit : ∀ d ∈ u.documentation, d.Tidy
  definitions : ∀ c ∈ u.definitions, ∀ d ∈ c.documentation, d.Tidy

/-! ### Characters of names -/

theorem unmarked_of_forall {p : Char → Bool} (hbracket : p '[' = false)
    (hbackslash : p '\\' = false) {cs : List Char} (h : ∀ c ∈ cs, p c = true) :
    Markup.Unmarked cs := by
  intro c hc
  constructor
  · rintro rfl
    rw [h _ hc] at hbracket
    cases hbracket
  · rintro rfl
    rw [h _ hc] at hbackslash
    cases hbackslash

theorem trimRight_joinTrimmed (ls : List (List Char)) :
    trimRight (joinTrimmed ls) = joinTrimmed ls := trimRight_trim _

/-! ### Comments -/

namespace Javadoc

/-- The name of a block tag consists of letters, digits and a few marks. -/
theorem unmarked_of_blockTag? {line name text : List Char}
    (h : blockTag? line = some (name, text)) : Markup.Unmarked name := by
  unfold blockTag? at h
  split at h
  · next c cs =>
    simp only at h
    split at h
    · next hc =>
      have hletter : Markup.Unmarked [c] :=
        unmarked_of_forall (p := Char.isAlpha) (by decide) (by decide) (by simpa using hc)
      have hrest : Markup.Unmarked (cs.takeWhile fun c => isWordChar c || c == '.' || c == '-') :=
        unmarked_of_forall (by decide) (by decide) fun d hd =>
          List.all_eq_true.mp List.all_takeWhile d hd
      have hname := List.forall_mem_append.mpr ⟨hletter, hrest⟩
      split at h
      · -- the name goes to the end of the line
        simp only [Option.some.injEq, Prod.mk.injEq] at h
        exact h.1 ▸ hname
      · -- the name ends at a blank
        split at h
        · simp only [Option.some.injEq, Prod.mk.injEq] at h
          exact h.1 ▸ hname
        · cases h
    · cases h
  · cases h

theorem unmarked_of_mem_group (ls : List (List Char)) :
    ∀ t ∈ (group ls).2, Markup.Unmarked t.1 := by
  induction ls with
  | nil => simp [group]
  | cons l ls ih =>
    intro t ht
    rw [group] at ht
    rcases e : blockTag? l with - | ⟨name, text⟩
    · rw [e] at ht
      exact ih t ht
    · rw [e] at ht
      rcases List.mem_cons.mp ht with rfl | ht
      · exact unmarked_of_blockTag? e
      · exact ih t ht

theorem trimRight_of_splitFirstWord {cs word rest : List Char}
    (h : splitFirstWord cs = some (word, rest)) : trimRight rest = rest := by
  unfold splitFirstWord at h
  split at h
  · cases h
  · simp only [Option.some.injEq, Prod.mk.injEq] at h
    rw [← h.2, trimRight_trim]

theorem tidy_of_tag {name content : List Char} (hname : Markup.Unmarked name)
    (hcontent : trimRight content = content) {t : DocumentationTag}
    (h : tag (String.ofList name) (String.ofList content) = .ok t) : t.Tidy := by
  have hmake : ∀ {value : String} {attributes : List (String × String)},
      trimRight value.toList = value.toList →
      DocumentationTag.make (String.ofList name) value attributes = .ok t → t.Tidy := by
    intro value attributes hvalue h
    obtain ⟨-, rfl⟩ := DocumentationTag.make_eq_ok_iff.mp h
    refine ⟨?_, hvalue⟩
    show Markup.Unmarked (String.ofList name).toList
    rwa [String.toList_ofList]
  unfold tag at h
  split at h
  · split at h
    · exact hmake rfl h
    · next word rest e =>
      refine hmake ?_ h
      rw [String.toList_ofList, trimRight_of_splitFirstWord e]
  · exact hmake (by rw [String.toList_ofList, hcontent]) h

theorem tidy_of_parse {comment : String} {position : Option Position} {d : Documentation}
    (h : parse comment position = .ok d) : d.Tidy := by
  simp only [parse, bind_eq_ok_iff, Documentation.make_eq_ok, Except.ok.injEq] at h
  obtain ⟨tags, htags, rfl⟩ := h
  refine forall_mem_of_mapM htags fun t ht _ htag => ?_
  exact tidy_of_tag (unmarked_of_mem_group _ t ht) (trimRight_joinTrimmed _) htag

end Javadoc

/-! ### Docstrings -/

theorem Docstring.tidy_of_parse {text : String} {position : Option Position} {d : Documentation}
    (h : parse text position = .ok d) : d.Tidy := by
  intro t ht
  obtain ⟨e, htag, rfl⟩ := exists_entry_of_parse h t ht
  have hvalue : trimRight (String.ofList (joinTrimmed e.lines)).toList
      = (String.ofList (joinTrimmed e.lines)).toList := by
    rw [String.toList_ofList, trimRight_joinTrimmed]
  exact ⟨unmarked_of_forall (by decide) (by decide) htag.word, hvalue⟩

/-! ### Units -/

theorem Java.tidy_of_convert {ids : IdSource} {p : Parsed Node} {u : CodeUnit}
    (h : convert ids (some p) = .ok u) : u.Tidy := by
  obtain ⟨root, _, hroot, -, -⟩ := convert_eq_ok_iff.mp h
  constructor
  · obtain ⟨blocks, hblocks⟩ := exists_documentationBlocks (.ofSource p.source) root
    intro d hd
    rw [documentation_of_convert hroot hblocks h] at hd
    obtain ⟨n, -, hblock⟩ := exists_of_forall₂_of_mem
      (forall₂_isBlock_of_documentationBlocks hblocks) (List.mem_of_mem_head? hd)
    exact Javadoc.tidy_of_parse hblock
  · intro c hc d hd
    obtain ⟨dss, hflat, hmade⟩ := exists_madeAt_of_convert hroot h
    have hcontent : c.toContent ∈ dss.flatten := hflat ▸ List.mem_map_of_mem hc
    obtain ⟨ds, hds, hmem⟩ := List.mem_flatten.mp hcontent
    obtain ⟨l, -, hl⟩ := exists_of_forall₂_of_mem hmade hds
    have hdocumentation := hl.documentation _ hmem
    rw [show c.toContent.documentation = some d from hd] at hdocumentation
    obtain ⟨n, -, -, hblock⟩ := documentationOf_eq_some hdocumentation
    exact Javadoc.tidy_of_parse hblock

namespace Python

theorem tidy_of_docstringOf {t : LineIndex} {n : Node} {d : Option Documentation}
    (h : docstringOf t n = .ok d) : ∀ e ∈ d, e.Tidy := by
  unfold docstringOf at h
  split at h
  · split at h
    · cases h
      simp
    · split at h
      · cases h
        simp
      · simp only [bind_eq_ok_iff, mapError_eq_ok_iff, pure_eq, Except.ok.injEq] at h
        obtain ⟨_, -, d, hd, rfl⟩ := h
        simpa using Docstring.tidy_of_parse hd
  · cases h
    simp

theorem tidy_of_convert {ids : IdSource} {workingDirectory : List String}
    {sourceRoot : Option Path} {p : Parsed Node} {u : CodeUnit}
    (h : convert ids workingDirectory sourceRoot (some p) = .ok u) : u.Tidy := by
  obtain ⟨root, parts, o, -, -, ho, hu⟩ := convert_eq_ok_iff.mp h
  obtain ⟨ds, imports, documentation, hds, -, hdocumentation, rfl⟩ := outline_eq_ok_iff.mp ho
  obtain ⟨-, rfl⟩ := Outline.toUnit_eq_ok_iff.mp hu
  refine ⟨tidy_of_docstringOf hdocumentation, fun c hc => ?_⟩
  have hmade := forall_made_of_definitions hds _ (Outline.mem_number hc).1
  cases hmade with
  | define _ _ _ _ hframe _ _ hdefine =>
    obtain ⟨-, hd⟩ := define_eq_ok_iff.mp hdefine
    have hdoc : c.documentation = _ := congrArg Definition.Content.documentation hd
    rw [hdoc]
    exact tidy_of_docstringOf (frame_eq_ok_iff.mp hframe).2.1

end Python

theorem Analyzer.tidy_of_analyzeFile {w : Workspace} {ids : IdSource} {a : Analyzer} {path : Path}
    {u : CodeUnit} (h : a.analyzeFile w ids path = .ok u) : u.Tidy := by
  unfold analyzeFile at h
  split at h
  · cases h
  · split at h
    · cases h
    · split at h
      · exact Java.tidy_of_convert h
      · exact Python.tidy_of_convert h

/-- All documentation in the unit of a file is tidy. -/
theorem Workspace.tidy_of_unitOf? {w : Workspace} {ids : IdSource} {path : Path}
    {root : Option Path} {e : AnalysisError} {u : CodeUnit}
    (h : (w.unitOf? ids path root).getD (.error e) = .ok u) : u.Tidy := by
  obtain ⟨a, ha⟩ := w.exists_analyzeFile_of_unitOf? h
  exact a.tidy_of_analyzeFile ha

end CodeOutline
