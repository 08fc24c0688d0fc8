/-
CodeOutline/Proofs/Java/DocumentationBlocks.lean

Where the documentation of a unit and of its definitions comes from.

The blocks of a source are read off the documentation comments of its tree, in source order
(`documentationComments`).  A definition is documented by the comment right before the node it is
made from, which is a node of the tree like any other, so its documentation is one of the blocks.

The nodes that definitions are made from (`documentedPlaces`) are met once by a walk through the
tree, and so are the nodes right before them.  So definitions with the same block are made from one
node, and of these there are several for a field alone (`documentedBy_of_convertDocumentation`).
-/
import CodeOutline.Proofs.Java.Places
import CodeOutline.Proofs.Java.WellFormed

namespace CodeOutline.Java

open Outcome

variable {t : LineIndex} {root : Node} {l : Located}

/-! ### Documentation comments -/

/-- The text of a comment. -/
def commentText (t : LineIndex) (n : Node) : String :=
  String.ofList ((textOf? t (some n)).getD [])

/-- Whether a node is a documentation comment. -/
def isDocumentation (t : LineIndex) (n : Node) : Bool :=
  n.kind = "block_comment" && Javadoc.isJavadoc (commentText t n)

/-- The documentation comments of a tree at any depth, in source order. -/
def documentationComments (t : LineIndex) (root : Node) : List Node :=
  ((Located.ofRoot root).preorder.map Located.node).filter (isDocumentation t)

/-- A block is what is read off a comment, and stands where the comment begins. -/
def IsBlock (t : LineIndex) (n : Node) (d : Documentation) : Prop :=
  Javadoc.parse (commentText t n) (some (t.position n.start)) = .ok d

theorem commentDocumentation_eq_some_iff {n : Node} {d : Documentation} :
    commentDocumentation t n = .ok (some d) ↔ isDocumentation t n = true ∧ IsBlock t n d := by
  show (if isDocumentation t n = true then
    (Javadoc.parse (commentText t n) (some (t.position n.start))).map some else .ok none) = _ ↔ _
  by_cases hn : isDocumentation t n = true
  · rw [if_pos hn, map_eq_ok_iff]
    simp only [Option.some.injEq, exists_eq_right, hn, true_and]
    rfl
  · simp [hn]

theorem commentDocumentation_eq_none_iff {n : Node} :
    commentDocumentation t n = .ok none ↔ isDocumentation t n = false := by
  show (if isDocumentation t n = true then
    (Javadoc.parse (commentText t n) (some (t.position n.start))).map some else .ok none) = _ ↔ _
  by_cases hn : isDocumentation t n = true
  · rw [if_pos hn, map_eq_ok_iff]
    simp [hn]
  · simp [hn]

theorem IsBlock.position {n : Node} {d : Documentation} (h : IsBlock t n d) :
    d.position = some (t.position n.start) := Javadoc.position_of_parse h

theorem forall₂_isBlock {ns : List Node} {os : List (Option Documentation)}
    (h : List.Forall₂ (fun n o => commentDocumentation t n = .ok o) ns os) :
    List.Forall₂ (IsBlock t) (ns.filter (isDocumentation t)) (os.filterMap id) := by
  induction h with
  | nil => exact .nil
  | @cons n o ns os hno _ ih =>
    cases o with
    | none =>
      rw [commentDocumentation_eq_none_iff] at hno
      rw [List.filter_cons_of_neg (by simp [hno])]
      exact ih
    | some d =>
      rw [commentDocumentation_eq_some_iff] at hno
      rw [List.filter_cons_of_pos hno.1]
      exact .cons hno.2 ih

/-- The blocks of a tree are read off its documentation comments, one off each. -/
theorem forall₂_isBlock_of_documentationBlocks {ds : List Documentation}
    (h : documentationBlocks t root = .ok ds) :
    List.Forall₂ (IsBlock t) (documentationComments t root) ds := by
  obtain ⟨os, hos, rfl⟩ := map_eq_ok_iff.mp h
  have hnodes : List.Forall₂ (fun n o => commentDocumentation t n = .ok o)
      ((Located.ofRoot root).preorder.map Located.node) os := by
    rw [List.forall₂_map_left_iff, ← List.flatMap_singleton Located.preorder,
      ← Located.walk_eq_flatMap_preorder]
    exact mapM_eq_ok_iff.mp hos
  exact forall₂_isBlock hnodes

/-! ### The comment before a declaration -/

theorem documentationOf_eq_some {d : Documentation} (h : documentationOf t l = .ok (some d)) :
    ∃ n, l.previous = some n ∧ isDocumentation t n = true ∧ IsBlock t n d := by
  unfold documentationOf at h
  split at h
  · cases h
  · next n e => exact ⟨n, e, commentDocumentation_eq_some_iff.mp h⟩

/-- What is read off the node right before a node of the tree is a block of the tree. -/
theorem mem_of_documentationOf {ds : List Documentation} {d : Documentation}
    (hblocks : documentationBlocks t root = .ok ds) (hl : Located.Inside root l)
    (h : documentationOf t l = .ok (some d)) : d ∈ ds := by
  obtain ⟨n, hprevious, hn, hblock⟩ := documentationOf_eq_some h
  obtain ⟨w, hw, rfl⟩ := Located.exists_mem_walk_iff.mpr (hl.previous n hprevious)
  obtain ⟨os, hos, rfl⟩ := map_eq_ok_iff.mp hblocks
  obtain ⟨o, ho, hread⟩ := exists_of_forall₂_of_mem (mapM_eq_ok_iff.mp hos).flip hw
  -- reading the same comment again gives the same
  have hsome : commentDocumentation t w.node = .ok (some d) :=
    commentDocumentation_eq_some_iff.mpr ⟨hn, hblock⟩
  have hsame : o = some d := Except.ok.inj (hread.symm.trans hsome)
  exact List.mem_filterMap.mpr ⟨o, ho, hsame⟩

/-! ### Where definitions are made -/

/-- Two definitions share a block: their documentation stands at the same place. -/
def ShareBlock (c d : Definition.Content) : Prop :=
  ∃ x y, c.documentation = some x ∧ d.documentation = some y ∧ x.position = y.position

/-- Two definitions are those of variables in one field declaration of a tree. -/
def ShareField (t : LineIndex) (root : Node) (c d : Definition.Content) : Prop :=
  ∃ owner field, Below root field ∧ field.kind = "field_declaration" ∧
    (∃ a ∈ field.fieldChildren "declarator", IsMember t owner (field, a) c) ∧
    ∃ b ∈ field.fieldChildren "declarator", IsMember t owner (field, b) d

/-- Definitions are made from a node: each has the documentation before the node, and there are
several for a field alone. -/
structure MadeAt (t : LineIndex) (root : Node) (l : Located) (ds : List Definition.Content) :
    Prop where
  documentation : ∀ d ∈ ds, documentationOf t l = .ok d.documentation
  fields : ds.Pairwise (ShareField t root)

/-- The nodes that the definitions of a type and of its members are made from. -/
def documentedPlaces (l : Located) : List Located :=
  l :: if isConcrete l.node then (bodyChildren l).filter (fun c => !isType c.node) else []

theorem documentation_of_memberDefinitions {owner : String} {declaration : Node}
    {ds : List Definition.Content} (h : memberDefinitions t owner declaration l = .ok ds) :
    ∀ d ∈ ds, documentationOf t l = .ok d.documentation := by
  intro d hd
  obtain ⟨f, _, _, _, hf, -, hmember⟩ := exists_frame_of_memberDefinitions h d hd
  obtain ⟨-, rfl⟩ := member_eq_ok_iff.mp hmember
  exact (frame_eq_ok_iff.mp hf).2.1

theorem shareField_of_memberDefinitions {owner : String} {declaration : Node}
    {ds : List Definition.Content} (hl : Below root l.node)
    (h : memberDefinitions t owner declaration l = .ok ds) : ds.Pairwise (ShareField t root) := by
  have hmembers := forall₂_isMember_of_memberDefinitions h
  unfold membersAt at hmembers
  split at hmembers
  · cases hmembers
    exact .nil
  · split at hmembers
    · -- a method or constructor
      obtain ⟨d, _, -, hnil, rfl⟩ := List.forall₂_cons_left_iff.mp hmembers
      cases hnil
      exact List.pairwise_singleton _ d
    · split at hmembers
      · next hf =>
        -- any two variables of a field
        have hvariable : ∀ d ∈ ds, ∃ a ∈ l.node.fieldChildren "declarator",
            IsMember t owner (l.node, a) d := by
          intro d hd
          obtain ⟨m, hm, hmd⟩ := exists_of_forall₂_of_mem hmembers hd
          obtain ⟨a, ha, rfl⟩ := List.mem_map.mp hm
          exact ⟨a, ha, hmd⟩
        exact List.pairwise_of_forall_mem_list fun c hc d hd =>
          ⟨owner, l.node, hl, hf, hvariable c hc, hvariable d hd⟩
      · cases hmembers
        exact .nil

/-- A type in the body of another one is no member of it. -/
theorem memberDefinitions_of_isType {owner : String} {declaration : Node}
    {ds : List Definition.Content} (ht : isType l.node = true)
    (h : memberDefinitions t owner declaration l = .ok ds) : ds = [] := by
  have hnone : membersAt l.node = [] := by
    unfold isType typeKind? at ht
    unfold membersAt isConstructor
    split at ht
    all_goals simp_all
  have hmembers := forall₂_isMember_of_memberDefinitions h
  rw [hnone] at hmembers
  exact List.forall₂_nil_left_iff.mp hmembers

/-- The definitions of a type and of its members are made from its places, one place after the
other. -/
theorem exists_madeAt_of_definitionsAt {d : Definition.Content} {ms : List Definition.Content}
    (hl : Located.Inside root l) (h : definitionsAt t l = .ok (d :: ms)) :
    ∃ dss : List (List Definition.Content), d :: ms = dss.flatten ∧
      List.Forall₂ (MadeAt t root) (documentedPlaces l) dss := by
  unfold definitionsAt at h
  split at h
  · cases h
  · obtain ⟨_, ms, _, documentation, _, _, _, -, hms, -, hdocumentation, -, -, -, -, he⟩ :=
      typeDefinitions_eq_ok_iff.mp h
    obtain ⟨rfl, rfl⟩ := List.cons_eq_cons.mp he
    have hhead : ∀ d : Definition.Content, d.documentation = documentation →
        MadeAt t root l [d] := by
      rintro d rfl
      exact ⟨List.forall_mem_singleton.mpr hdocumentation, List.pairwise_singleton _ d⟩
    unfold members at hms
    unfold documentedPlaces
    split at hms
    · next hc =>
      rw [if_pos hc]
      obtain ⟨mss, hmss, rfl⟩ := map_eq_ok_iff.mp hms
      have hbelow : ∀ c ∈ bodyChildren l, Below root c.node := fun c hmem =>
        (hl.bodyChildren c hmem).node
      obtain ⟨dss, hflat, hdss⟩ := exists_forall₂_filter (p := fun c : Located => !isType c.node)
        ((List.forall₂_and_left _ _).mpr ⟨hbelow, mapM_eq_ok_iff.mp hmss⟩)
        fun c ds hcds ht => memberDefinitions_of_isType (by simpa using ht) hcds.2
      refine ⟨[_] :: dss, by rw [hflat]; rfl, .cons (hhead _ rfl) (hdss.imp fun c ds hcds => ?_)⟩
      exact ⟨documentation_of_memberDefinitions hcds.2,
        shareField_of_memberDefinitions hcds.1 hcds.2⟩
    · next hc =>
      cases hms
      rw [if_neg hc]
      exact ⟨[[_]], rfl, .cons (hhead _ rfl) .nil⟩

theorem exists_madeAt {ls : List Located}
    {groups : List (Definition.Content × List Definition.Content)}
    (hls : ∀ l ∈ ls, Located.Inside root l)
    (h : List.Forall₂ (fun l g => definitionsAt t l = .ok (g.1 :: g.2)) ls groups) :
    ∃ dss : List (List Definition.Content), groups.flatMap (fun g => g.1 :: g.2) = dss.flatten ∧
      List.Forall₂ (MadeAt t root) (ls.flatMap documentedPlaces) dss := by
  induction h with
  | nil => exact ⟨[], rfl, .nil⟩
  | @cons l g ls groups hl _ ih =>
    obtain ⟨hinside, hrest⟩ := List.forall_mem_cons.mp hls
    obtain ⟨ds, hds, hmade⟩ := exists_madeAt_of_definitionsAt hinside hl
    obtain ⟨dss, hdss, hmades⟩ := ih hrest
    refine ⟨ds ++ dss, by rw [List.flatMap_cons, hds, hdss, List.flatten_append], ?_⟩
    rw [List.flatMap_cons]
    exact List.rel_append hmade hmades

/-! ### Each place is met once -/

/-- The children of a body are grandchildren of its type. -/
theorem bodyChildren_sublist (l : Located) :
    (bodyChildren l).Sublist (l.children.flatMap Located.children) := by
  unfold bodyChildren
  split
  · exact List.nil_sublist _
  · next body e =>
    have hbody : [body].Sublist l.children :=
      List.singleton_sublist.mpr (List.mem_of_find?_eq_some e)
    rw [← List.flatMap_singleton Located.children body]
    exact hbody.flatMap Located.children

/-- A walk meets the places that definitions are made from, each of them once. -/
theorem subperm_flatMap_documentedPlaces (root : Node) :
    ((declarations root).flatMap documentedPlaces).Subperm (Located.walk [.ofRoot root]) := by
  have hchildren := Located.subperm_flatMap_children root
  -- the types are met, and so are the children of their bodies
  have hmembers : ((declarations root).flatMap (fun l =>
      if isConcrete l.node then (bodyChildren l).filter (fun c => !isType c.node) else [])).Sublist
        ((((declarations root).flatMap Located.children).flatMap Located.children).filter
          (fun c => !isType c.node)) := by
    rw [List.flatMap_assoc, List.filter_flatMap]
    refine List.Sublist.flatMap_right _ fun l _ => ?_
    split
    · exact (bodyChildren_sublist l).filter _
    · exact List.nil_sublist _
  have hgrandchildren : (((declarations root).flatMap Located.children).flatMap
      Located.children).Subperm (Located.walk [.ofRoot root]) := by
    have htypes : ((declarations root).flatMap Located.children).Subperm
        (Located.walk [.ofRoot root]) :=
      (List.filter_sublist.flatMap _).subperm.trans hchildren
    exact (Located.subperm_flatMap htypes _).trans hchildren
  -- no child that counts as a member is a type
  have hsplit : ((declarations root).flatMap documentedPlaces).Perm (declarations root ++
      (declarations root).flatMap (fun l => if isConcrete l.node then
        (bodyChildren l).filter (fun c => !isType c.node) else [])) := by
    have hperm := (List.flatMap_append_perm (declarations root) (fun l => [l]) (fun l =>
      if isConcrete l.node then (bodyChildren l).filter (fun c => !isType c.node) else [])).symm
    rwa [List.flatMap_singleton'] at hperm
  exact hsplit.subperm.trans
    (((List.Subperm.refl _).append (hmembers.subperm.trans (hgrandchildren.filter _))).trans
      (List.filter_append_perm _ _).subperm)

/-- Where a node begins, if it is a documentation comment. -/
def commentPosition? (t : LineIndex) (n : Node) : Option Position :=
  if isDocumentation t n then some (t.position n.start) else none

/-- Where the documentation comment before a node begins. -/
def blockPosition? (t : LineIndex) (l : Located) : Option Position :=
  l.previous.bind (commentPosition? t)

theorem blockPosition?_of_documentationOf {d : Documentation}
    (h : documentationOf t l = .ok (some d)) :
    ∃ p, blockPosition? t l = some p ∧ d.position = some p := by
  obtain ⟨n, hprevious, hn, hblock⟩ := documentationOf_eq_some h
  refine ⟨t.position n.start, ?_, hblock.position⟩
  rw [blockPosition?, hprevious, Option.bind_some, commentPosition?, if_pos hn]

/-- The documentation comments of a tree begin at different places. -/
def DistinctComments (t : LineIndex) (root : Node) : Prop :=
  ((documentationComments t root).map (fun n => t.position n.start)).Nodup

theorem filterMap_commentPosition? (t : LineIndex) (ns : List Node) :
    ns.filterMap (commentPosition? t)
      = (ns.filter (isDocumentation t)).map (fun n => t.position n.start) := by
  rw [← List.filterMap_eq_map, List.filterMap_filter]
  refine List.filterMap_congr fun n _ => ?_
  rw [commentPosition?]
  rfl

/-- If all documentation comments begin at different places, no two places that definitions are made
from have the same one before them. -/
theorem pairwise_blockPosition? (h : DistinctComments t root) :
    ((declarations root).flatMap documentedPlaces).Pairwise
      (fun l m => ∀ p, blockPosition? t l = some p → blockPosition? t m ≠ some p) := by
  have hpositions : (((declarations root).flatMap documentedPlaces).filterMap
      (blockPosition? t)).Subperm
        ((documentationComments t root).map (fun n => t.position n.start)) := by
    have hplaces := Located.subperm_filterMap (subperm_flatMap_documentedPlaces root)
      Located.previous
    have hcomments := Located.subperm_filterMap
      (hplaces.trans (Located.subperm_filterMap_previous root)) (commentPosition? t)
    rw [List.filterMap_filterMap, filterMap_commentPosition?, Located.walk_eq_flatMap_preorder,
      List.flatMap_singleton] at hcomments
    exact hcomments
  obtain ⟨ps, hperm, hsub⟩ := hpositions
  have hnodup := hperm.nodup_iff.mp (List.Nodup.sublist hsub h)
  rw [List.Nodup, List.pairwise_filterMap] at hnodup
  exact hnodup.imp fun hne p hl hm => hne p hl p hm rfl

/-! ### Units -/

/-- Definitions made from different places share no block. -/
theorem pairwise_flatten_of_madeAt {ls : List Located} {dss : List (List Definition.Content)}
    (hls : ls.Pairwise (fun l m => ∀ p, blockPosition? t l = some p → blockPosition? t m ≠ some p))
    (h : List.Forall₂ (MadeAt t root) ls dss) :
    dss.flatten.Pairwise (fun c d => ShareBlock c d → ShareField t root c d) := by
  induction h with
  | nil => exact .nil
  | @cons l ds ls dss hds hdss ih =>
    obtain ⟨hl, hrest⟩ := List.pairwise_cons.mp hls
    have hfields : ds.Pairwise (fun c d => ShareBlock c d → ShareField t root c d) := by
      refine hds.fields.imp ?_
      intro c d hfield _
      exact hfield
    rw [List.flatten_cons, List.pairwise_append]
    refine ⟨hfields, ih hrest, ?_⟩
    rintro c hc d hd ⟨x, y, hx, hy, hxy⟩
    -- the one is made here, the other at a later place
    obtain ⟨es, hes, hd⟩ := List.mem_flatten.mp hd
    obtain ⟨m, hm, hmade⟩ := exists_of_forall₂_of_mem hdss hes
    obtain ⟨p, hp, hxp⟩ := blockPosition?_of_documentationOf (hx ▸ hds.documentation c hc)
    obtain ⟨q, hq, hyq⟩ := blockPosition?_of_documentationOf (hy ▸ hmade.documentation d hd)
    have hpq : p = q := Option.some.inj (by rw [← hxp, hxy, hyq])
    subst hpq
    exact absurd hq (hl m hm p hp)

/-- The definitions of a unit are made from the places in its types, one after the other. -/
theorem exists_madeAt_of_convert {ids : IdSource} {p : Parsed Node} {u : CodeUnit}
    (hroot : p.tree? = some root) (h : convert ids (some p) = .ok u) :
    ∃ dss : List (List Definition.Content), u.definitions.map Definition.toContent = dss.flatten ∧
      List.Forall₂ (MadeAt (.ofSource p.source) root)
        ((declarations root).flatMap documentedPlaces) dss := by
  obtain ⟨root', hroot', groups, hflat, hgroups⟩ := exists_declared_of_convert h
  rw [hroot, Option.some.injEq] at hroot'
  subst hroot'
  rw [hflat]
  exact exists_madeAt
    (fun l hl => Located.inside_of_mem_walk (List.mem_of_mem_filter hl)) hgroups

theorem documentation_of_convert {ids : IdSource} {p : Parsed Node} {u : CodeUnit}
    {ds : List Documentation} (hroot : p.tree? = some root)
    (hblocks : documentationBlocks (.ofSource p.source) root = .ok ds)
    (h : convert ids (some p) = .ok u) : u.documentation = ds.head? := by
  obtain ⟨root', o, hroot', ho, hu⟩ := convert_eq_ok_iff.mp h
  rw [hroot, Option.some.injEq] at hroot'
  subst hroot'
  obtain ⟨-, rfl⟩ := Outline.toUnit_eq_ok_iff.mp hu
  simp only [outline, hblocks, built_ok, bind_eq_ok_iff, ok_bind, pure_eq, Except.ok.injEq] at ho
  obtain ⟨_, -, rfl⟩ := ho
  rfl

/-- What documents a unit and its definitions are blocks of its source. -/
structure DocumentedBy (t : LineIndex) (root : Node) (blocks : List Documentation) (u : CodeUnit) :
    Prop where
  unit : u.documentation = blocks.head?
  definitions : ∀ d ∈ u.definitions,
    d.documentation = none ∨ ∃ block ∈ blocks, d.documentation = some block
  /-- A block documents one definition, or variables of one field. -/
  shared : DistinctComments t root → (u.definitions.map Definition.toContent).Pairwise
    (fun c d => ShareBlock c d → ShareField t root c d)

/-- The blocks of a source are read off its documentation comments, one off each in source order,
and what documents the unit and its definitions are these blocks. -/
theorem documentedBy_of_convertDocumentation {p : Parsed Node} (hroot : p.tree? = some root) :
    ∃ blocks, convertDocumentation (some p) = .ok blocks ∧
      List.Forall₂ (IsBlock (.ofSource p.source)) (documentationComments (.ofSource p.source) root)
        blocks ∧
      ∀ (ids : IdSource) (u : CodeUnit), convert ids (some p) = .ok u →
        DocumentedBy (.ofSource p.source) root blocks u := by
  obtain ⟨blocks, hblocks⟩ := exists_documentationBlocks (.ofSource p.source) root
  refine ⟨blocks, ?_, forall₂_isBlock_of_documentationBlocks hblocks, fun ids u hu => ?_⟩
  · rw [convertDocumentation, Parsed.requireTree_of_tree? hroot]
    simp only [hblocks]
    rfl
  · obtain ⟨dss, hflat, hmade⟩ := exists_madeAt_of_convert hroot hu
    refine ⟨documentation_of_convert hroot hblocks hu, fun d hd => ?_, fun hdistinct => ?_⟩
    · have hcontent : d.toContent ∈ dss.flatten := hflat ▸ List.mem_map_of_mem hd
      obtain ⟨es, hes, hd⟩ := List.mem_flatten.mp hcontent
      obtain ⟨l, hl, hmade⟩ := exists_of_forall₂_of_mem hmade hes
      have hinside : Located.Inside root l :=
        Located.inside_of_mem_walk ((subperm_flatMap_documentedPlaces root).subset hl)
      have hdocumentation := hmade.documentation _ hd
      rcases e : d.documentation with - | block
      · exact .inl rfl
      · rw [e] at hdocumentation
        exact .inr ⟨block, mem_of_documentationOf hblocks hinside hdocumentation, rfl⟩
    · rw [hflat]
      exact pairwise_flatten_of_madeAt (pairwise_blockPosition? hdistinct) hmade

/-! ### A class and a field with documentation -/

/-- The tree of a class with a field of two variables, both with documentation. -/
def documentedTree : Node :=
  .plain "program" 0 29 none [
    .plain "block_comment" 0 6 none [],
    .plain "class_declaration" 6 29 none [
      .plain "identifier" 12 13 (some "name") [],
      .plain "class_body" 13 29 (some "body") [
        .plain "block_comment" 14 20 none [],
        .plain "field_declaration" 20 28 none [
          .plain "integral_type" 20 23 (some "type") [],
          .plain "variable_declarator" 24 25 (some "declarator") [
            .plain "identifier" 24 25 (some "name") []],
          .plain "variable_declarator" 26 27 (some "declarator") [
            .plain "identifier" 26 27 (some "name") []]]]]]

/-- What a parser makes of the text of `documentedTree`. -/
def documented : Parsed Node where
  path := none
  source := "/**d*/class A{/**e*/int x,y;}".toUTF8.toList
  tree := some documentedTree
  problems := []

theorem documentedBy_of_convertDocumentation_documented :
    documented.tree? = some documentedTree ∧
      DistinctComments (.ofSource documented.source) documentedTree ∧
      (∃ u, convert toString (some documented) = .ok u) ∧
      ∃ blocks, convertDocumentation (some documented) = .ok blocks ∧
        List.Forall₂ (IsBlock (.ofSource documented.source))
          (documentationComments (.ofSource documented.source) documentedTree) blocks ∧
        ∀ (ids : IdSource) (u : CodeUnit), convert ids (some documented) = .ok u →
          DocumentedBy (.ofSource documented.source) documentedTree blocks u := by
  have hdistinct : ((documentationComments (.ofSource documented.source) documentedTree).map
      (fun n => (LineIndex.ofSource documented.source).position n.start)).Nodup := by
    decide +kernel
  have hok : (convert toString (some documented)).isOk = true := by decide +kernel
  exact ⟨rfl, hdistinct, exists_eq_ok_of_isOk hok, documentedBy_of_convertDocumentation rfl⟩

end CodeOutline.Java
