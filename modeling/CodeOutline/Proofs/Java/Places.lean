/-
CodeOutline/Proofs/Java/Places.lean

Where the positions in a unit come from.

Every position that a unit holds is that of the first or of the last character of a node of the
tree: the ends of a declaration, the beginning of an annotation or of a supertype, the beginning of
a comment.  So what holds of the ends of all nodes holds of all positions in the unit
(`forall_positions_of_convert`).
-/
import CodeOutline.Proofs.Entity.Positions
import CodeOutline.Proofs.Java.Arrangement

namespace CodeOutline.Java

open Outcome

variable {P : Position → Prop} {t : LineIndex} {root : Node}

/-- Both ends of all nodes of a tree have positions of a kind. -/
def EndsSatisfy (P : Position → Prop) (t : LineIndex) (root : Node) : Prop :=
  ∀ n, Below root n → P (t.position n.start) ∧ P (t.lastPosition n.stop)

/-! ### Parts of a declaration -/

theorem forall_positions_of_scopeOf {level : ScopeLevel} {n : Node} {children : List Scope}
    {s : Scope} (hP : EndsSatisfy P t root) (hn : Below root n)
    (hchildren : ∀ c ∈ children, ∀ p ∈ c.positions, P p)
    (h : scopeOf t level n children = .ok s) : ∀ p ∈ s.positions, P p := by
  obtain ⟨-, -, -, -, rfl⟩ := scopeOf_eq_ok_iff.mp h
  exact Scope.forall_positions_iff.mpr ⟨(hP n hn).1, (hP n hn).2, hchildren⟩

theorem forall_positions_of_commentDocumentation {n : Node} {d : Option Documentation}
    (hP : EndsSatisfy P t root) (hn : Below root n) (h : commentDocumentation t n = .ok d) :
    ∀ p ∈ Documentation.positionsOf d, P p := by
  rcases d with - | d
  · simp [Documentation.positionsOf]
  · simpa [Documentation.positionsOf, position_of_commentDocumentation h] using (hP n hn).1

theorem forall_positions_of_documentationOf {l : Located} {d : Option Documentation}
    (hP : EndsSatisfy P t root) (hl : Located.Inside root l) (h : documentationOf t l = .ok d) :
    ∀ p ∈ Documentation.positionsOf d, P p := by
  unfold documentationOf at h
  split at h
  · cases h
    simp [Documentation.positionsOf]
  · next n e => exact forall_positions_of_commentDocumentation hP (hl.previous n e) h

theorem positions_of_make {kind : ReferenceKind} {target : String} {p : Position}
    {metadata : List (Scalar × Value)} {r : Reference}
    (h : Reference.make kind target p metadata = .ok r) : r.positions = [p] := by
  obtain ⟨-, rfl⟩ := Reference.make_eq_ok_iff.mp h
  rfl

theorem forall_positions_of_annotationReferences {n : Node} {rs : List Reference}
    (hP : EndsSatisfy P t root) (hn : Below root n) (h : annotationReferences t n = .ok rs) :
    ∀ r ∈ rs, ∀ p ∈ r.positions, P p := by
  unfold annotationReferences at h
  split at h
  · cases h
    simp
  · next m e =>
    have hm : Below root m := hn.of_mem (mem_children_of_childOfKind? e)
    refine forall_mem_of_mapM h fun a ha r hr => ?_
    rw [positions_of_make hr, List.forall_mem_singleton]
    exact (hP a (hm.of_mem (List.mem_of_mem_filter ha))).1

theorem forall_positions_of_typeReferences {kind : ReferenceKind} {ns : List Node}
    {rs : List Reference} (hP : EndsSatisfy P t root) (hns : ∀ n ∈ ns, Below root n)
    (h : ns.mapM (typeReference t kind) = .ok rs) : ∀ r ∈ rs, ∀ p ∈ r.positions, P p := by
  refine forall_mem_of_mapM h fun n hn r hr => ?_
  rw [positions_of_make hr, List.forall_mem_singleton]
  exact (hP n (hns n hn)).1

theorem below_of_mem_typeNodes {clause : Option Node}
    (hclause : ∀ c, clause = some c → Below root c) : ∀ s ∈ typeNodes clause, Below root s := by
  intro s hs
  unfold typeNodes at hs
  split at hs
  · cases hs
  · next c =>
    have hc : Below root c := hclause c rfl
    -- the types stand in a list in the clause, or in the clause itself
    split at hs
    · next list e =>
      exact (hc.of_mem (mem_children_of_childOfKind? e)).of_mem (mem_children_of_namedChildren hs)
    · exact hc.of_mem (mem_children_of_namedChildren hs)

theorem below_of_mem_extendedNodes {n : Node} (hn : Below root n) :
    ∀ s ∈ extendedNodes n, Below root s := by
  have hclause : ∀ c, extendsClause? n = some c → Below root c := by
    intro c hc
    unfold extendsClause? at hc
    split at hc
    · exact hn.of_mem (mem_children_of_fieldChild? hc)
    · split at hc
      · cases hc
      · exact hn.of_mem (mem_children_of_childOfKind? hc)
  intro s hs
  apply below_of_mem_typeNodes hclause
  unfold extendedNodes at hs
  dsimp only at hs
  split at hs
  · exact List.mem_of_mem_drop hs
  · exact hs

theorem below_of_mem_implementedNodes {n : Node} (hn : Below root n) :
    ∀ s ∈ implementedNodes n, Below root s := by
  apply below_of_mem_typeNodes
  intro c hc
  unfold implementsClause? at hc
  split at hc
  · exact hn.of_mem (mem_children_of_fieldChild? hc)
  · cases hc

/-! ### Members -/

theorem forall_positions_of_member {l : Located} {f : Frame} {name owner : String}
    {kind : DefinitionKind} {facts : List (Scalar × Value)} {d : Definition.Content}
    (hP : EndsSatisfy P t root) (hl : Located.Inside root l) (hf : frame t l = .ok f)
    (h : f.member name kind owner facts = .ok d) : ∀ p ∈ d.positions, P p := by
  obtain ⟨hscope, hdocumentation, hreferences⟩ := frame_eq_ok_iff.mp hf
  obtain ⟨-, rfl⟩ := member_eq_ok_iff.mp h
  have hpositions := forall_positions_of_scopeOf hP hl.node (by simp) hscope
  exact Definition.Content.forall_positions_iff.mpr
    ⟨(Scope.forall_positions_iff.mp hpositions).1, hpositions,
      forall_positions_of_annotationReferences hP hl.node hreferences,
      forall_positions_of_documentationOf hP hl hdocumentation⟩

theorem forall_positions_of_memberDefinitions {l : Located} {owner : String} {declaration : Node}
    {ds : List Definition.Content} (hP : EndsSatisfy P t root) (hl : Located.Inside root l)
    (h : memberDefinitions t owner declaration l = .ok ds) :
    ∀ d ∈ ds, ∀ p ∈ d.positions, P p := by
  intro d hd
  obtain ⟨f, name, kind, facts, hf, -, hmember⟩ := exists_frame_of_memberDefinitions h d hd
  exact forall_positions_of_member hP hl hf hmember

theorem Located.Inside.bodyChildren {l : Located} (hl : Located.Inside root l) :
    ∀ c ∈ Java.bodyChildren l, Located.Inside root c := by
  intro c hc
  unfold Java.bodyChildren at hc
  split at hc
  · cases hc
  · next body e => exact (hl.children body (List.mem_of_find?_eq_some e)).children c hc

theorem forall_positions_of_members {l : Located} {owner : String} {ds : List Definition.Content}
    (hP : EndsSatisfy P t root) (hl : Located.Inside root l) (h : members t owner l = .ok ds) :
    ∀ d ∈ ds, ∀ p ∈ d.positions, P p :=
  forall_mem_of_members h fun c hc _ hds =>
    forall_positions_of_memberDefinitions hP (hl.bodyChildren c hc) hds

/-! ### Types -/

theorem forall_positions_of_particulars {n : Node} {ps : Particulars} (hP : EndsSatisfy P t root)
    (hn : Below root n) (h : particulars t n = .ok ps) : ∀ r ∈ ps.2, ∀ p ∈ r.positions, P p := by
  obtain ⟨-, extend, implement, hextend, himplement, hreferences⟩ := typeFacts_of_particulars h
  rw [hreferences, List.forall_mem_append]
  exact ⟨forall_positions_of_typeReferences hP (below_of_mem_extendedNodes hn) hextend,
    forall_positions_of_typeReferences hP (below_of_mem_implementedNodes hn) himplement⟩

theorem forall_positions_of_typeDefinitions {l : Located} {kind : DefinitionKind}
    {ds : List Definition.Content} (hP : EndsSatisfy P t root) (hl : Located.Inside root l)
    (h : typeDefinitions t kind l = .ok ds) : ∀ d ∈ ds, ∀ p ∈ d.positions, P p := by
  obtain ⟨name, ms, scope, documentation, annotations, ps, declaring, -, hms, hscope,
    hdocumentation, hannotations, hparticulars, -, -, rfl⟩ := typeDefinitions_eq_ok_iff.mp h
  have hmembers := forall_positions_of_members hP hl hms
  have hpositions := forall_positions_of_scopeOf hP hl.node
    (Definition.Content.forall_positions_of_scopes hmembers) hscope
  refine List.forall_mem_cons.mpr ⟨?_, hmembers⟩
  exact Definition.Content.forall_positions_iff.mpr
    ⟨(Scope.forall_positions_iff.mp hpositions).1, hpositions,
      List.forall_mem_append.mpr
        ⟨forall_positions_of_annotationReferences hP hl.node hannotations,
          forall_positions_of_particulars hP hl.node hparticulars⟩,
      forall_positions_of_documentationOf hP hl hdocumentation⟩

/-! ### Units -/

theorem forall_positions_of_definitions {ds : List Definition.Content}
    (hP : EndsSatisfy P t root) (h : definitions t root = .ok ds) :
    ∀ d ∈ ds, ∀ p ∈ d.positions, P p := by
  refine forall_mem_of_flatten_mapM h fun l hl ds hds => ?_
  unfold definitionsAt at hds
  split at hds
  · cases hds
    simp
  · exact forall_positions_of_typeDefinitions hP (Located.inside_of_mem_walk hl) hds

theorem forall_positions_of_documentationBlocks {blocks : List Documentation}
    (hP : EndsSatisfy P t root) (h : documentationBlocks t root = .ok blocks) :
    ∀ p ∈ Documentation.positionsOf blocks.head?, P p := by
  obtain ⟨ds, hds, rfl⟩ := map_eq_ok_iff.mp h
  have hall := forall_mem_of_mapM hds fun l hl d hd =>
    forall_positions_of_commentDocumentation hP (Located.inside_of_mem_walk hl).node hd
  rcases e : (ds.filterMap id).head? with - | d
  · simp [Documentation.positionsOf]
  · have hmem : some d ∈ ds := by simpa using List.mem_of_head? e
    exact hall _ hmem

/-- What holds of the ends of all nodes of a tree holds of all positions in the unit. -/
theorem forall_positions_of_convert {ids : IdSource} {p : Parsed Node} {u : CodeUnit}
    (hroot : p.tree? = some root) (hP : EndsSatisfy P (.ofSource p.source) root)
    (h : convert ids (some p) = .ok u) : ∀ x ∈ u.positions, P x := by
  obtain ⟨root', o, hroot', ho, hu⟩ := convert_eq_ok_iff.mp h
  rw [hroot, Option.some.injEq] at hroot'
  subst hroot'
  simp only [outline, bind_eq_ok_iff, built_eq_ok_iff, pure_eq, Except.ok.injEq] at ho
  obtain ⟨ds, hds, blocks, hblocks, rfl⟩ := ho
  exact Outline.forall_positions_of_toUnit hu (forall_positions_of_definitions hP hds)
    (forall_positions_of_documentationBlocks hP hblocks)

end CodeOutline.Java
