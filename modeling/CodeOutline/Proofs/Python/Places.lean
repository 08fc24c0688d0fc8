/-
CodeOutline/Proofs/Python/Places.lean

Where the positions in a unit of a module come from.

Every position that a unit holds is one at which a node of the tree begins or ends: the ends of a
definition, the beginning of a decorator or of a base, the beginning of a docstring.  So what holds
of the ends of all nodes holds of all positions in the unit (`forall_positions_of_convert`).
-/
import CodeOutline.Proofs.Docstring
import CodeOutline.Proofs.Entity.Positions
import CodeOutline.Proofs.Python.Making

namespace CodeOutline.Python

open Outcome

variable {P : Position → Prop} {t : LineIndex} {root : Node}

/-- Where the nodes of a tree begin and end, there are positions of a kind. -/
def EndsSatisfy (P : Position → Prop) (t : LineIndex) (root : Node) : Prop :=
  ∀ n ∈ root.preorder,
    (∀ p, startOf t n = .ok p → P p) ∧ ∀ r, spanOf t n = .ok r → P r.1 ∧ P r.2

/-! ### Parts of a definition -/

theorem forall_positions_of_docstringOf {n : Node} {d : Option Documentation}
    (hP : EndsSatisfy P t root) (hn : n ∈ root.preorder) (h : docstringOf t n = .ok d) :
    ∀ p ∈ Documentation.positionsOf d, P p := by
  unfold docstringOf at h
  split at h
  · split at h
    · -- a body without statements
      cases h
      simp [Documentation.positionsOf]
    · next first rest e =>
      have hplace : first ∈ n.places "body" := by
        rw [e]
        exact List.mem_cons_self
      have hfirst : first ∈ n.children := Node.mem_children_of_mem_places hplace
      split at h
      · cases h
        simp [Documentation.positionsOf]
      · -- the docstring stands where the first statement begins
        simp only [bind_eq_ok_iff, mapError_eq_ok_iff, pure_eq, Except.ok.injEq] at h
        obtain ⟨start, hstart, d, hd, rfl⟩ := h
        simpa [Documentation.positionsOf, Docstring.position_of_parse hd] using
          (hP first (Node.mem_preorder_child hn hfirst)).1 start hstart
  · cases h
    simp [Documentation.positionsOf]

theorem forall_positions_of_referenceAt {kind : ReferenceKind} {n : Node} {target : String}
    {metadata : List (Scalar × Value)} {r : Reference} (hP : EndsSatisfy P t root)
    (hn : n ∈ root.preorder) (h : referenceAt t kind n target metadata = .ok r) :
    ∀ p ∈ r.positions, P p := by
  simp only [referenceAt, bind_eq_ok_iff, built_eq_ok_iff, Reference.make_eq_ok_iff] at h
  obtain ⟨start, hstart, -, rfl⟩ := h
  exact List.forall_mem_singleton.mpr ((hP n hn).1 start hstart)

theorem forall_positions_of_decoratorReferences {n : Node} {rs : List Reference}
    (hP : EndsSatisfy P t root) (hn : n ∈ root.preorder) (h : decoratorReferences t n = .ok rs) :
    ∀ r ∈ rs, ∀ p ∈ r.positions, P p := by
  refine forall_mem_of_mapM h fun x hx r hr => ?_
  have hx : x.2 ∈ n.children := Node.mem_children_of_mem_inRole (mem_of_mem_named hx)
  exact forall_positions_of_referenceAt hP (Node.mem_preorder_child hn hx) hr

theorem forall_positions_of_baseReferences {n : Node} {rs : List Reference}
    (hP : EndsSatisfy P t root) (hn : n ∈ root.preorder) (h : baseReferences t n = .ok rs) :
    ∀ r ∈ rs, ∀ p ∈ r.positions, P p := by
  refine forall_mem_of_mapM h fun x hx r hr => ?_
  have hx : x.2 ∈ n.children :=
    Node.mem_children_of_mem_inRole (mem_of_mem_named (List.mem_of_mem_filter hx))
  exact forall_positions_of_referenceAt hP (Node.mem_preorder_child hn hx) hr

/-! ### Definitions -/

theorem forall_positions_of_define {level : ScopeLevel} {n : Node} {children : List Scope}
    {f : Frame} {name : String} {kind : DefinitionKind} {owner : Option String}
    {references : List Reference} {facts : List (Scalar × Value)} {d : Definition.Content}
    (hP : EndsSatisfy P t root) (hn : n ∈ root.preorder) (hf : frame t level n children = .ok f)
    (hchildren : ∀ c ∈ children, ∀ p ∈ c.positions, P p)
    (hreferences : ∀ r ∈ references, ∀ p ∈ r.positions, P p)
    (h : f.define name kind owner references facts = .ok d) : ∀ p ∈ d.positions, P p := by
  obtain ⟨⟨r, hr, hscope⟩, hdocumentation, hdecorators⟩ := frame_eq_ok_iff.mp hf
  obtain ⟨-, rfl⟩ := define_eq_ok_iff.mp h
  obtain ⟨hstart, hstop⟩ := (hP n hn).2 r hr
  have hpositions : ∀ p ∈ f.scope.positions, P p := by
    rw [(Scope.make_eq_ok_iff.mp hscope).2.2]
    exact Scope.forall_positions_iff.mpr ⟨hstart, hstop, hchildren⟩
  exact Definition.Content.forall_positions_iff.mpr
    ⟨(Scope.forall_positions_iff.mp hpositions).1, hpositions,
      List.forall_mem_append.mpr
        ⟨forall_positions_of_decoratorReferences hP hn hdecorators, hreferences⟩,
      forall_positions_of_docstringOf hP hn hdocumentation⟩

theorem Made.forall_positions {d : Definition.Content} (hP : EndsSatisfy P t root)
    (h : Made t root d) : ∀ p ∈ d.positions, P p := by
  induction h with
  | define hn _ _ _ hframe hreferences _ hdefine ih =>
    have hscopes := Definition.Content.forall_positions_of_scopes ih
    refine forall_positions_of_define hP hn hframe hscopes ?_ hdefine
    rcases hreferences with rfl | hbases
    · simp
    · exact forall_positions_of_baseReferences hP hn hbases

/-! ### Modules -/

/-- What holds where the nodes of a tree begin and end holds of all positions in the unit. -/
theorem forall_positions_of_convert {ids : IdSource} {workingDirectory : List String}
    {sourceRoot : Option Path} {p : Parsed Node} {u : CodeUnit} (hroot : p.tree? = some root)
    (hP : EndsSatisfy P (.ofSource p.source) root)
    (h : convert ids workingDirectory sourceRoot (some p) = .ok u) : ∀ x ∈ u.positions, P x := by
  obtain ⟨root', parts, o, hroot', -, ho, hu⟩ := convert_eq_ok_iff.mp h
  rw [hroot, Option.some.injEq] at hroot'
  subst hroot'
  obtain ⟨ds, imports, documentation, hds, -, hdocumentation, rfl⟩ := outline_eq_ok_iff.mp ho
  exact Outline.forall_positions_of_toUnit hu
    (fun d hd => (forall_made_of_definitions hds d hd).forall_positions hP)
    (forall_positions_of_docstringOf hP (Node.mem_preorder_self root) hdocumentation)

end CodeOutline.Python
