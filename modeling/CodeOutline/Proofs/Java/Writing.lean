/-
CodeOutline/Proofs/Java/Writing.lean

The units of sources can be written.

All facts that a conversion finds are texts, truth values and lists of texts, so there is no set in
a unit (`elementary_of_convert`).
-/
import CodeOutline.Proofs.Entity.Elementary
import CodeOutline.Proofs.Java.Arrangement

namespace CodeOutline.Javadoc

open Outcome

theorem elementary_of_tag {name content : String} {t : DocumentationTag}
    (h : tag name content = .ok t) : AllElementary t.parts := by
  unfold tag at h
  split at h
  · split at h
    · exact DocumentationTag.elementary_of_make h
    · exact DocumentationTag.elementary_of_make h
  · exact DocumentationTag.elementary_of_make h

theorem elementary_of_parse {comment : String} {position : Option Position} {d : Documentation}
    (h : parse comment position = .ok d) : AllElementary d.parts := by
  obtain ⟨tags, htags, h⟩ := bind_eq_ok_iff.mp h
  exact Documentation.elementary_of_make (forall_mem_of_mapM htags fun _ _ _ => elementary_of_tag) h

end CodeOutline.Javadoc

namespace CodeOutline.Java

open Outcome

variable {t : LineIndex}

/-! ### Parts of a declaration -/

theorem elementary_of_scopeOf {level : ScopeLevel} {n : Node} {children : List Scope} {s : Scope}
    (hchildren : ∀ c ∈ children, AllElementary c.parts) (h : scopeOf t level n children = .ok s) :
    AllElementary s.parts := by
  simp only [scopeOf, bind_eq_ok_iff, built_eq_ok_iff] at h
  obtain ⟨_, -, h⟩ := h
  exact Scope.elementary_of_make hchildren h

theorem elementary_of_commentDocumentation {n : Node} {d : Option Documentation}
    (h : commentDocumentation t n = .ok d) : ∀ e ∈ d, AllElementary e.parts := by
  unfold commentDocumentation at h
  simp only at h
  split at h
  · obtain ⟨e, he, rfl⟩ := map_eq_ok_iff.mp h
    simpa using Javadoc.elementary_of_parse he
  · cases h
    simp

theorem elementary_of_documentationOf {l : Located} {d : Option Documentation}
    (h : documentationOf t l = .ok d) : ∀ e ∈ d, AllElementary e.parts := by
  unfold documentationOf at h
  split at h
  · cases h
    simp
  · exact elementary_of_commentDocumentation h

theorem elementary_of_annotationReferences {n : Node} {rs : List Reference}
    (h : annotationReferences t n = .ok rs) : ∀ r ∈ rs, AllElementary r.parts := by
  unfold annotationReferences at h
  split at h
  · cases h
    simp
  · exact forall_mem_of_mapM h fun _ _ _ => Reference.elementary_of_make (by simp)

theorem elementary_of_typeReferences {kind : ReferenceKind} {ns : List Node} {rs : List Reference}
    (h : ns.mapM (typeReference t kind) = .ok rs) : ∀ r ∈ rs, AllElementary r.parts :=
  forall_mem_of_mapM h fun _ _ _ => Reference.elementary_of_make (by simp)

/-! ### Members -/

theorem elementary_of_member {l : Located} {f : Frame} {name owner : String} {kind : DefinitionKind}
    {facts : List (Scalar × Value)} {d : Definition.Content} (hf : frame t l = .ok f)
    (hfacts : ∀ e ∈ facts, e.2.Elementary) (h : f.member name kind owner facts = .ok d) :
    AllElementary d.parts := by
  obtain ⟨hscope, hdocumentation, hreferences⟩ := frame_eq_ok_iff.mp hf
  rw [Frame.member, built_eq_ok_iff] at h
  exact Definition.Content.elementary_of_make (elementary_of_scopeOf (by simp) hscope)
    (elementary_of_annotationReferences hreferences) (elementary_of_documentationOf hdocumentation)
    (List.forall_mem_cons.mpr ⟨Value.elementary_text _, hfacts⟩) h

theorem elementary_of_memberDefinitions {l : Located} {owner : String} {declaration : Node}
    {ds : List Definition.Content} (h : memberDefinitions t owner declaration l = .ok ds) :
    ∀ d ∈ ds, AllElementary d.parts := by
  unfold memberDefinitions at h
  split at h
  · cases h
    simp
  · split at h
    · -- a method
      obtain ⟨d, hd, rfl⟩ := map_eq_ok_iff.mp h
      simp only [method, bind_eq_ok_iff] at hd
      obtain ⟨_, -, _, -, f, hf, _, -, hd⟩ := hd
      exact List.forall_mem_singleton.mpr (elementary_of_member hf (by simp) hd)
    · split at h
      · -- a constructor
        obtain ⟨d, hd, rfl⟩ := map_eq_ok_iff.mp h
        simp only [constructor, bind_eq_ok_iff] at hd
        obtain ⟨_, -, f, hf, _, -, hd⟩ := hd
        exact List.forall_mem_singleton.mpr (elementary_of_member hf (by simp) hd)
      · split at h
        · -- the variables of a field
          refine forall_mem_of_mapM h fun declarator _ d hd => ?_
          simp only [variableOf, bind_eq_ok_iff] at hd
          obtain ⟨_, -, f, hf, hd⟩ := hd
          exact elementary_of_member hf (by simp) hd
        · cases h
          simp

theorem elementary_of_members {l : Located} {owner : String} {ds : List Definition.Content}
    (h : members t owner l = .ok ds) : ∀ d ∈ ds, AllElementary d.parts := by
  unfold members at h
  split at h
  · exact forall_mem_of_flatten_mapM h fun _ _ _ => elementary_of_memberDefinitions
  · cases h
    simp

/-! ### Types -/

theorem elementary_of_particulars {n : Node} {ps : Particulars} (h : particulars t n = .ok ps) :
    (∀ e ∈ ps.1, e.2.Elementary) ∧ ∀ r ∈ ps.2, AllElementary r.parts := by
  obtain ⟨hfacts, extend, implement, hextend, himplement, hreferences⟩ :=
    typeFacts_of_particulars h
  obtain ⟨facts, references⟩ := ps
  constructor
  · cases hfacts
    all_goals simp
  · rw [hreferences, List.forall_mem_append]
    exact ⟨elementary_of_typeReferences hextend, elementary_of_typeReferences himplement⟩

theorem elementary_of_declaringType {l : Located} {facts : List (Scalar × Value)}
    (h : declaringType t l = .ok facts) : ∀ e ∈ facts, e.2.Elementary := by
  unfold declaringType at h
  split at h
  · cases h
    simp
  · simp only [bind_eq_ok_iff, pure_eq, Except.ok.injEq] at h
    obtain ⟨name, -, rfl⟩ := h
    simp

theorem elementary_of_typeDefinitions {l : Located} {kind : DefinitionKind}
    {ds : List Definition.Content} (h : typeDefinitions t kind l = .ok ds) :
    ∀ d ∈ ds, AllElementary d.parts := by
  simp only [typeDefinitions, bind_eq_ok_iff, built_eq_ok_iff, pure_eq, Except.ok.injEq] at h
  obtain ⟨name, -, ms, hms, scope, hscope, documentation, hdocumentation, annotations,
    hannotations, ⟨facts, references⟩, hparticulars, declaring, hdeclaring, d, hd, rfl⟩ := h
  have hmembers := elementary_of_members hms
  obtain ⟨hfacts, hreferences⟩ := elementary_of_particulars hparticulars
  refine List.forall_mem_cons.mpr ⟨Definition.Content.elementary_of_make ?_ ?_
    (elementary_of_documentationOf hdocumentation) ?_ hd, hmembers⟩
  · exact elementary_of_scopeOf (Definition.Content.elementary_scopes hmembers) hscope
  · exact List.forall_mem_append.mpr
      ⟨elementary_of_annotationReferences hannotations, hreferences⟩
  · exact List.forall_mem_append.mpr ⟨hfacts, elementary_of_declaringType hdeclaring⟩

/-! ### Units -/

theorem elementary_of_definitions {root : Node} {ds : List Definition.Content}
    (h : definitions t root = .ok ds) : ∀ d ∈ ds, AllElementary d.parts := by
  refine forall_mem_of_flatten_mapM h fun l _ ds hds => ?_
  unfold definitionsAt at hds
  split at hds
  · cases hds
    simp
  · exact elementary_of_typeDefinitions hds

theorem elementary_of_documentationBlocks {root : Node} {blocks : List Documentation}
    (h : documentationBlocks t root = .ok blocks) : ∀ d ∈ blocks, AllElementary d.parts := by
  obtain ⟨ds, hds, rfl⟩ := map_eq_ok_iff.mp h
  have hall := forall_mem_of_mapM hds fun _ _ _ => elementary_of_commentDocumentation
  intro d hd
  exact hall (some d) (by simpa using hd) d rfl

/-- All parts of the unit of a source are elementary. -/
theorem elementary_of_convert {ids : IdSource} {p : Parsed Node} {u : CodeUnit}
    (h : convert ids (some p) = .ok u) : AllElementary u.parts := by
  obtain ⟨root, o, -, ho, hu⟩ := convert_eq_ok_iff.mp h
  simp only [outline, bind_eq_ok_iff, built_eq_ok_iff, pure_eq, Except.ok.injEq] at ho
  obtain ⟨ds, hds, blocks, hblocks, rfl⟩ := ho
  refine Outline.elementary_of_toUnit (elementary_of_definitions hds) (fun d hd => ?_) (by simp) hu
  exact elementary_of_documentationBlocks hblocks d (List.mem_of_mem_head? hd)

/-- The unit of a source can be written. -/
theorem writable_of_convert {ids : IdSource} {p : Parsed Node} {u : CodeUnit}
    (h : convert ids (some p) = .ok u) : u.Writable := by
  obtain ⟨root, o, -, -, hu⟩ := convert_eq_ok_iff.mp h
  exact CodeUnit.writable_of_elementary (elementary_of_convert h)
    (Outline.dependencies_of_toUnit hu)

end CodeOutline.Java
