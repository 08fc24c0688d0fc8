/-
CodeOutline/Proofs/Python/Writing.lean

The units of modules can be written.

All facts that a conversion finds are texts, truth values, lists of texts and nothing, so there is
no set in a unit (`elementary_of_convert`).
-/
import CodeOutline.Proofs.Python.Making

namespace CodeOutline.Docstring

open Outcome

theorem elementary_of_parse {text : String} {position : Option Position} {d : Documentation}
    (h : parse text position = .ok d) : AllElementary d.parts := by
  simp only [parse, bind_eq_ok_iff, mapError_eq_ok_iff] at h
  obtain ⟨s, -, tags, htags, h⟩ := h
  exact Documentation.elementary_of_make
    (forall_mem_of_mapM htags fun _ _ _ => DocumentationTag.elementary_of_make) h

end CodeOutline.Docstring

namespace CodeOutline.Python

open Outcome

variable {t : LineIndex}

/-! ### Parts of a definition -/

theorem elementary_of_docstringOf {n : Node} {d : Option Documentation}
    (h : docstringOf t n = .ok d) : ∀ e ∈ d, AllElementary e.parts := by
  unfold docstringOf at h
  split at h
  · split at h
    · cases h
      simp
    · split at h
      · cases h
        simp
      · simp only [bind_eq_ok_iff, mapError_eq_ok_iff, pure_eq, Except.ok.injEq] at h
        obtain ⟨_, -, d, hd, rfl⟩ := h
        simpa using Docstring.elementary_of_parse hd
  · cases h
    simp

theorem elementary_of_referenceAt {kind : ReferenceKind} {n : Node} {target : String}
    {metadata : List (Scalar × Value)} {r : Reference} (hmetadata : ∀ e ∈ metadata, e.2.Elementary)
    (h : referenceAt t kind n target metadata = .ok r) : AllElementary r.parts := by
  simp only [referenceAt, bind_eq_ok_iff, built_eq_ok_iff] at h
  obtain ⟨_, -, h⟩ := h
  exact Reference.elementary_of_make hmetadata h

theorem elementary_of_decoratorReferences {n : Node} {rs : List Reference}
    (h : decoratorReferences t n = .ok rs) : ∀ r ∈ rs, AllElementary r.parts :=
  forall_mem_of_mapM h fun _ _ _ => elementary_of_referenceAt (by simp)

theorem elementary_of_baseReferences {n : Node} {rs : List Reference}
    (h : baseReferences t n = .ok rs) : ∀ r ∈ rs, AllElementary r.parts :=
  forall_mem_of_mapM h fun _ _ _ => elementary_of_referenceAt (by simp)

/-! ### Definitions -/

theorem elementary_of_define {level : ScopeLevel} {n : Node} {children : List Scope} {f : Frame}
    {name : String} {kind : DefinitionKind} {owner : Option String} {references : List Reference}
    {facts : List (Scalar × Value)} {d : Definition.Content}
    (hf : frame t level n children = .ok f) (hchildren : ∀ c ∈ children, AllElementary c.parts)
    (hreferences : ∀ r ∈ references, AllElementary r.parts) (hfacts : ∀ e ∈ facts, e.2.Elementary)
    (h : f.define name kind owner references facts = .ok d) : AllElementary d.parts := by
  obtain ⟨⟨r, -, hscope⟩, hdocumentation, hdecorators⟩ := frame_eq_ok_iff.mp hf
  rw [Frame.define, built_eq_ok_iff] at h
  refine Definition.Content.elementary_of_make (Scope.elementary_of_make hchildren hscope)
    (List.forall_mem_append.mpr ⟨elementary_of_decoratorReferences hdecorators, hreferences⟩)
    (elementary_of_docstringOf hdocumentation) (List.forall_mem_append.mpr ⟨?_, hfacts⟩) h
  cases owner <;> simp [declaringType]

theorem Made.elementary {root : Node} {d : Definition.Content} (h : Made t root d) :
    AllElementary d.parts := by
  induction h with
  | define _ _ _ _ hframe hreferences hfacts hdefine ih =>
    have hscopes := Definition.Content.elementary_scopes ih
    refine elementary_of_define hframe hscopes ?_ hfacts hdefine
    rcases hreferences with rfl | hbases
    · simp
    · exact elementary_of_baseReferences hbases

/-! ### Modules -/

/-- All parts of the unit of a module are elementary. -/
theorem elementary_of_convert {ids : IdSource} {workingDirectory : List String}
    {sourceRoot : Option Path} {p : Parsed Node} {u : CodeUnit}
    (h : convert ids workingDirectory sourceRoot (some p) = .ok u) : AllElementary u.parts := by
  obtain ⟨root, parts, o, -, -, ho, hu⟩ := convert_eq_ok_iff.mp h
  obtain ⟨ds, imports, documentation, hds, -, hdocumentation, rfl⟩ := outline_eq_ok_iff.mp ho
  refine Outline.elementary_of_toUnit ?_ (elementary_of_docstringOf hdocumentation) ?_ hu
  · exact fun d hd => (forall_made_of_definitions hds d hd).elementary
  · have himports :
        (Value.list (imports.map fun i => .textOrNull (i.fullName parts))).Elementary :=
      .list (by simp)
    simpa [moduleFacts] using himports

/-- The unit of a module can be written. -/
theorem writable_of_convert {ids : IdSource} {workingDirectory : List String}
    {sourceRoot : Option Path} {p : Parsed Node} {u : CodeUnit}
    (h : convert ids workingDirectory sourceRoot (some p) = .ok u) : u.Writable := by
  obtain ⟨root, parts, o, -, -, -, hu⟩ := convert_eq_ok_iff.mp h
  exact CodeUnit.writable_of_elementary (elementary_of_convert h)
    (Outline.dependencies_of_toUnit hu)

end CodeOutline.Python
