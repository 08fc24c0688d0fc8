/-
CodeOutline/Proofs/Java/Arrangement.lean

Which definitions a unit has, and in which order.

`typesWithin` and `memberNodes` say without any conversion which nodes of a tree declare something:
the type declarations at any depth, each with the innermost one around it, and for each of them the
members directly in its body.  The definitions of a unit are those of the type declarations in this
order, each followed by those of its members (`exists_groups_of_convert`).

`IsMember` and `IsTypeOutline` say what the definition of a member and of a type must agree with.
-/
import CodeOutline.Proofs.Java.Part
import CodeOutline.Proofs.Java.Traversal
import CodeOutline.Proofs.Metadata.Lookup

namespace CodeOutline.Java

open Outcome

variable {t : LineIndex}

/-! ### Members -/

/-- The members that a child of a body declares, each with the node that has its name. -/
def membersAt (c : Node) : List (Node × Node) :=
  if !c.named then []
  else if c.kind = "method_declaration" || isConstructor c then [(c, c)]
  else if c.kind = "field_declaration" then (c.fieldChildren "declarator").map (fun d => (c, d))
  else []

/-- The members of a type, which classes and records alone have. -/
def memberNodes (n : Node) : List (Node × Node) :=
  if isConcrete n then (n.fieldChild? "body").elim [] (fun body => body.children.flatMap membersAt)
  else []

/-- The kind of definition that a member gives. -/
def memberKind (c : Node) : DefinitionKind :=
  if c.kind = "field_declaration" then .variable else .function

/-- A definition is that of a member of the type with a name. -/
structure IsMember (t : LineIndex) (owner : String) (m : Node × Node) (d : Definition.Content) :
    Prop where
  name : ∃ name, nameText t m.2 = some name ∧ d.name = .text name
  kind : d.kind = memberKind m.1
  span : t.span? m.1.start m.1.stop = some (d.scope.start, d.scope.stop)
  position : d.position = d.scope.start
  declaring : d.metadata.get? "declaringType" = some (.text owner)

theorem span?_of_scopeOf {level : ScopeLevel} {n : Node} {children : List Scope} {s : Scope}
    (h : scopeOf t level n children = .ok s) :
    t.span? n.start n.stop = some (s.start, s.stop) := by
  obtain ⟨-, hlt, -, -, rfl⟩ := scopeOf_eq_ok_iff.mp h
  simp [LineIndex.span?, Nat.not_le.mpr hlt]

/-- A definition built from the frame of a member and its name is that of the member. -/
theorem isMember_of_frame {owner name : String} {l : Located} {m : Node} {f : Frame}
    {facts : List (Scalar × Value)} {d : Definition.Content}
    (hname : nameOf t m = .ok name) (hf : frame t l = .ok f)
    (hfacts : "declaringType" ∉ Metadata.textKeys facts)
    (h : f.member name (memberKind l.node) owner facts = .ok d) :
    IsMember t owner (l.node, m) d := by
  obtain ⟨-, rfl⟩ := member_eq_ok_iff.mp h
  exact {
    name := ⟨name, nameOf_eq_ok_iff.mp hname, rfl⟩
    kind := rfl
    span := span?_of_scopeOf (frame_eq_ok_iff.mp hf).1
    position := rfl
    declaring := Metadata.get?_ofEntries_cons_of_notMem (.text "declaringType") hfacts }

theorem isMember_of_method {owner : String} {l : Located} {d : Definition.Content}
    (hk : l.node.kind = "method_declaration") (h : method t owner l = .ok d) :
    IsMember t owner (l.node, l.node) d := by
  simp only [method, bind_eq_ok_iff] at h
  obtain ⟨name, hname, _, -, f, hf, _, -, h⟩ := h
  rw [show DefinitionKind.function = memberKind l.node by simp [memberKind, hk]] at h
  exact isMember_of_frame hname hf (by simp [Metadata.textKeys, Scalar.render]) h

theorem isMember_of_constructor {owner : String} {declaration : Node} {l : Located}
    {d : Definition.Content} (hk : isConstructor l.node = true)
    (h : constructor t owner declaration l = .ok d) : IsMember t owner (l.node, l.node) d := by
  simp only [constructor, bind_eq_ok_iff] at h
  obtain ⟨name, hname, f, hf, _, -, h⟩ := h
  have hkind : memberKind l.node = .function := by
    simp only [isConstructor, Bool.or_eq_true, beq_iff_eq] at hk
    rcases hk with hk | hk <;> simp [memberKind, hk]
  rw [← hkind] at h
  exact isMember_of_frame hname hf (by simp [Metadata.textKeys, Scalar.render]) h

theorem isMember_of_variableOf {owner : String} {l : Located} {declarator : Node}
    {d : Definition.Content} (hk : l.node.kind = "field_declaration")
    (h : variableOf t owner l declarator = .ok d) :
    IsMember t owner (l.node, declarator) d := by
  simp only [variableOf, bind_eq_ok_iff] at h
  obtain ⟨name, hname, f, hf, h⟩ := h
  rw [show DefinitionKind.variable = memberKind l.node by simp [memberKind, hk]] at h
  exact isMember_of_frame hname hf (by simp [Metadata.textKeys, Scalar.render]) h

/-- The definitions that a child of a body gives are those of the members it declares. -/
theorem forall₂_isMember_of_memberDefinitions {owner : String} {declaration : Node} {l : Located}
    {ds : List Definition.Content} (h : memberDefinitions t owner declaration l = .ok ds) :
    List.Forall₂ (IsMember t owner) (membersAt l.node) ds := by
  -- both sides ask for the kind of the child in the same order
  unfold memberDefinitions at h
  unfold membersAt
  split at h
  · next hn =>
    cases h
    rw [if_pos hn]
    exact .nil
  · next hn =>
    rw [if_neg hn]
    split at h
    · next hk =>
      -- a method
      obtain ⟨d, hd, rfl⟩ := map_eq_ok_iff.mp h
      rw [if_pos (by simp [hk])]
      exact .cons (isMember_of_method hk hd) .nil
    · next hk =>
      split at h
      · next hc =>
        -- a constructor
        obtain ⟨d, hd, rfl⟩ := map_eq_ok_iff.mp h
        rw [if_pos (by simp [hc])]
        exact .cons (isMember_of_constructor hc hd) .nil
      · next hc =>
        rw [if_neg (by simp [hk, hc])]
        split at h
        · next hf =>
          -- a field, with one definition for each variable
          rw [if_pos hf, List.forall₂_map_left_iff]
          exact (mapM_eq_ok_iff.mp h).imp fun _ _ hd => isMember_of_variableOf hf hd
        · next hf =>
          cases h
          rw [if_neg hf]
          exact .nil

theorem bodyChildren_eq (l : Located) :
    bodyChildren l = (l.node.fieldChild? "body").elim []
      (fun body => Located.siblings (body :: l.node :: l.ancestors) none body.children) := by
  have hbody : l.node.fieldChild? "body"
      = (l.children.find? (fun c => c.node.field == some "body")).map Located.node := by
    rw [Node.fieldChild?, ← Located.map_node_children, List.find?_map]
    rfl
  rw [bodyChildren, hbody]
  split
  · next e => rw [e]; rfl
  · next body e =>
    -- what holds the body is the type with what is around it
    rw [e, Option.map_some, Option.elim_some,
      ← Located.ancestors_of_mem_siblings (List.mem_of_find?_eq_some e)]
    rfl

theorem map_node_bodyChildren (l : Located) :
    (bodyChildren l).map Located.node = (l.node.fieldChild? "body").elim [] Node.children := by
  rw [bodyChildren_eq]
  cases l.node.fieldChild? "body" with
  | none => rfl
  | some body => exact Located.map_node_siblings _ _ _

/-- The definitions of the members of a type are those of its member nodes, in the same order. -/
theorem forall₂_isMember_of_members {owner : String} {l : Located}
    {ds : List Definition.Content} (h : members t owner l = .ok ds) :
    List.Forall₂ (IsMember t owner) (memberNodes l.node) ds := by
  unfold members at h
  unfold memberNodes
  split at h
  · next hc =>
    obtain ⟨dss, hdss, rfl⟩ := map_eq_ok_iff.mp h
    have hnodes : (l.node.fieldChild? "body").elim [] (fun body => body.children.flatMap membersAt)
        = ((bodyChildren l).map (fun c => membersAt c.node)).flatten := by
      rw [← List.flatMap_def, ← List.flatMap_map, map_node_bodyChildren]
      cases l.node.fieldChild? "body" <;> rfl
    rw [if_pos hc, hnodes]
    apply List.rel_flatten
    rw [List.forall₂_map_left_iff]
    exact (mapM_eq_ok_iff.mp hdss).imp fun _ _ hd => forall₂_isMember_of_memberDefinitions hd
  · next hc =>
    cases h
    rw [if_neg hc]
    exact .nil

/-! ### Types -/

/-- A definition is that of a type, and others are those of its members. -/
structure IsTypeOutline (t : LineIndex) (outer : Option Node) (n : Node) (d : Definition.Content)
    (ms : List Definition.Content) : Prop where
  kind : typeKind? n.kind = some d.kind
  members : ∃ name, nameText t n = some name ∧ d.name = .text name ∧
    List.Forall₂ (IsMember t name) (memberNodes n) ms
  span : t.span? n.start n.stop = some (d.scope.start, d.scope.stop)
  children : d.scope.children = ms.map (·.scope)
  position : d.position = d.scope.start
  declaring : Option.Rel (fun o v => ∃ name, nameText t o = some name ∧ v = Value.text name) outer
    (d.metadata.get? "declaringType")

/-- What is particular to a kind of type does not tell the type around it. -/
theorem declaringType_notMem_of_particulars {n : Node} {ps : Particulars}
    (h : particulars t n = .ok ps) : "declaringType" ∉ Metadata.textKeys ps.1 := by
  obtain ⟨facts, references⟩ := ps
  cases (typeFacts_of_particulars h).1
  all_goals simp [Metadata.textKeys, Scalar.render]

/-- Of the facts about a type, the last one tells the name of the innermost type around it. -/
theorem rel_declaringType {l : Located} {facts declaring : List (Scalar × Value)}
    (hfacts : "declaringType" ∉ Metadata.textKeys facts)
    (h : declaringType t l = .ok declaring) :
    Option.Rel (fun o v => ∃ name, nameText t o = some name ∧ v = Value.text name)
      (l.ancestors.find? isType)
      ((Metadata.ofEntries (facts ++ declaring)).get? "declaringType") := by
  unfold declaringType at h
  split at h
  · next e =>
    -- no type around it, and no other fact has this key
    cases h
    rw [e, List.append_nil, Metadata.get?_ofEntries_of_notMem hfacts]
    exact .none
  · next o e =>
    -- the name of the type around it is written last
    obtain ⟨name, hname, h⟩ := bind_eq_ok_iff.mp h
    cases h
    rw [e]
    have hget := Metadata.get?_ofEntries_concat (.text "declaringType") (.text name) facts
    rw [show (Scalar.text "declaringType").render = "declaringType" from rfl] at hget
    rw [hget]
    exact .some ⟨name, nameOf_eq_ok_iff.mp hname, rfl⟩

theorem isTypeOutline_of_typeDefinitions {kind : DefinitionKind} {l : Located}
    {ds : List Definition.Content} (hk : typeKind? l.node.kind = some kind)
    (h : typeDefinitions t kind l = .ok ds) :
    ∃ d ms, ds = d :: ms ∧ IsTypeOutline t (l.ancestors.find? isType) l.node d ms := by
  obtain ⟨name, ms, scope, _, _, ps, declaring, hname, hms, hscope, -, -, hparticulars, hdeclaring,
    -, rfl⟩ := typeDefinitions_eq_ok_iff.mp h
  refine ⟨_, ms, rfl, ?_⟩
  exact {
    kind := hk
    members := ⟨name, nameOf_eq_ok_iff.mp hname, rfl, forall₂_isMember_of_members hms⟩
    span := span?_of_scopeOf hscope
    children := by
      obtain ⟨-, -, -, -, rfl⟩ := scopeOf_eq_ok_iff.mp hscope
      rfl
    position := rfl
    declaring := rel_declaringType (declaringType_notMem_of_particulars hparticulars) hdeclaring }

/-! ### Units -/

/-- The type declarations of a tree in their surroundings, in source order. -/
def declarations (root : Node) : List Located :=
  (Located.walk [.ofRoot root]).filter (fun l => isType l.node)

/-- Of some nodes those that declare a type give definitions: one of the type, which those of its
members follow. -/
theorem exists_declared {ls : List Located} {dss : List (List Definition.Content)}
    (h : List.Forall₂ (fun l ds => definitionsAt t l = .ok ds) ls dss) :
    ∃ groups : List (Definition.Content × List Definition.Content),
      dss.flatten = groups.flatMap (fun g => g.1 :: g.2) ∧
      List.Forall₂ (fun l g => definitionsAt t l = .ok (g.1 :: g.2))
        (ls.filter (fun l => isType l.node)) groups := by
  -- a node that declares no type adds nothing on either side, any other one a group
  induction h with
  | nil => exact ⟨[], rfl, .nil⟩
  | @cons l ds ls dss hl _ ih =>
    obtain ⟨groups, hflat, hgroups⟩ := ih
    rcases hk : typeKind? l.node.kind with - | kind
    · have hnone : ds = [] := by
        simp only [definitionsAt, hk, Except.ok.injEq] at hl
        exact hl.symm
      refine ⟨groups, by rw [hnone, List.flatten_cons, List.nil_append, hflat], ?_⟩
      rw [List.filter_cons_of_neg (by simp [isType, hk])]
      exact hgroups
    · have htype : typeDefinitions t kind l = .ok ds := by
        simpa only [definitionsAt, hk] using hl
      obtain ⟨d, ms, rfl, -⟩ := isTypeOutline_of_typeDefinitions hk htype
      refine ⟨(d, ms) :: groups, by rw [List.flatten_cons, hflat, List.flatMap_cons], ?_⟩
      rw [List.filter_cons_of_pos (by simp [isType, hk])]
      exact .cons hl hgroups

theorem isTypeOutline_of_definitionsAt {l : Located} {d : Definition.Content}
    {ms : List Definition.Content} (h : definitionsAt t l = .ok (d :: ms)) :
    IsTypeOutline t (l.ancestors.find? isType) l.node d ms := by
  unfold definitionsAt at h
  split at h
  · cases h
  · next kind hk =>
    obtain ⟨_, _, he, ho⟩ := isTypeOutline_of_typeDefinitions hk h
    obtain ⟨rfl, rfl⟩ := List.cons_eq_cons.mp he
    exact ho

theorem filterMap_declaration? (ls : List Located) :
    ls.filterMap declaration?
      = (ls.filter (fun l => isType l.node)).map (fun l => (l.ancestors.find? isType, l.node)) := by
  rw [← List.filterMap_eq_map, ← List.filterMap_eq_filter, List.filterMap_filterMap]
  refine List.filterMap_congr fun l _ => ?_
  cases h : isType l.node <;> simp [declaration?, h, Option.guard]

/-- The definitions of a type and of its members, for each type among some nodes. -/
theorem exists_groups {ls : List Located} {dss : List (List Definition.Content)}
    (h : List.Forall₂ (fun l ds => definitionsAt t l = .ok ds) ls dss) :
    ∃ groups : List (Definition.Content × List Definition.Content),
      dss.flatten = groups.flatMap (fun g => g.1 :: g.2) ∧
      List.Forall₂ (fun d g => IsTypeOutline t d.1 d.2 g.1 g.2) (ls.filterMap declaration?)
        groups := by
  obtain ⟨groups, hflat, hgroups⟩ := exists_declared h
  refine ⟨groups, hflat, ?_⟩
  rw [filterMap_declaration?, List.forall₂_map_left_iff]
  exact hgroups.imp fun _ _ => isTypeOutline_of_definitionsAt

theorem convert_eq_ok_iff {ids : IdSource} {p : Parsed Node} {u : CodeUnit} :
    convert ids (some p) = .ok u ↔
      ∃ root o, p.tree? = some root ∧ outline (.ofSource p.source) p.unitName root = .ok o ∧
        o.toUnit ids = .ok u := by
  rw [convert, Parsed.requireTree_bind_eq_ok_iff]
  simp only [mapError_eq_ok_iff, bind_eq_ok_iff, built_eq_ok_iff, exists_and_left]

/-- The definitions of a unit are those that its type declarations give. -/
theorem exists_declared_of_convert {ids : IdSource} {p : Parsed Node} {u : CodeUnit}
    (h : convert ids (some p) = .ok u) :
    ∃ root, p.tree? = some root ∧
      ∃ groups : List (Definition.Content × List Definition.Content),
        u.definitions.map Definition.toContent = groups.flatMap (fun g => g.1 :: g.2) ∧
        List.Forall₂ (fun l g => definitionsAt (.ofSource p.source) l = .ok (g.1 :: g.2))
          (declarations root) groups := by
  obtain ⟨root, o, hroot, ho, hu⟩ := convert_eq_ok_iff.mp h
  obtain ⟨-, rfl⟩ := Outline.toUnit_eq_ok_iff.mp hu
  simp only [outline, definitions, bind_eq_ok_iff, pure_eq, Except.ok.injEq, map_eq_ok_iff,
    mapM_eq_ok_iff] at ho
  obtain ⟨-, ⟨dss, hdss, rfl⟩, -, -, rfl⟩ := ho
  obtain ⟨groups, hflat, hgroups⟩ := exists_declared hdss
  refine ⟨root, hroot, groups, ?_, hgroups⟩
  rw [← hflat]
  exact Outline.map_toContent_number ids 1 _

/-- The definitions of a unit are those of the type declarations of the tree, in source order, each
followed by those of its members. -/
theorem exists_groups_of_convert {ids : IdSource} {p : Parsed Node} {u : CodeUnit}
    (h : convert ids (some p) = .ok u) :
    ∃ root, p.tree? = some root ∧
      ∃ groups : List (Definition.Content × List Definition.Content),
        u.definitions.map Definition.toContent = groups.flatMap (fun g => g.1 :: g.2) ∧
        List.Forall₂ (fun d g => IsTypeOutline (.ofSource p.source) d.1 d.2 g.1 g.2)
          (typesWithin none root) groups := by
  obtain ⟨root, o, hroot, ho, hu⟩ := convert_eq_ok_iff.mp h
  obtain ⟨-, rfl⟩ := Outline.toUnit_eq_ok_iff.mp hu
  simp only [outline, definitions, bind_eq_ok_iff, pure_eq, Except.ok.injEq, map_eq_ok_iff,
    mapM_eq_ok_iff] at ho
  obtain ⟨-, ⟨dss, hdss, rfl⟩, -, -, rfl⟩ := ho
  obtain ⟨groups, hflat, hgroups⟩ := exists_groups hdss
  refine ⟨root, hroot, groups, ?_, ?_⟩
  · rw [← hflat]
    exact Outline.map_toContent_number ids 1 _
  · rw [← filterMap_declaration?_walk]
    exact hgroups

/-! ### A type in the body of a method -/

/-- A named node that is there and not erroneous. -/
def Node.plain (kind : String) (start stop : Nat) (field : Option String) (children : List Node) :
    Node :=
  { kind := kind, start := start, stop := stop, field := field, named := true, missing := false,
    flagged := false, children := children }

/-- The tree of a class with a method, in whose body a class with two fields stands. -/
def nestedTree : Node :=
  .plain "program" 0 36 none [
    .plain "class_declaration" 0 36 none [
      .plain "identifier" 6 7 (some "name") [],
      .plain "class_body" 7 36 (some "body") [
        .plain "method_declaration" 8 35 none [
          .plain "void_type" 8 12 (some "type") [],
          .plain "identifier" 13 14 (some "name") [],
          .plain "formal_parameters" 14 16 (some "parameters") [],
          .plain "block" 16 35 (some "body") [
            .plain "class_declaration" 17 34 none [
              .plain "identifier" 23 24 (some "name") [],
              .plain "class_body" 24 34 (some "body") [
                .plain "field_declaration" 25 33 none [
                  .plain "integral_type" 25 28 (some "type") [],
                  .plain "variable_declarator" 29 30 (some "declarator") [
                    .plain "identifier" 29 30 (some "name") []],
                  .plain "variable_declarator" 31 32 (some "declarator") [
                    .plain "identifier" 31 32 (some "name") []]]]]]]]]]

/-- What a parser makes of the text of `nestedTree`. -/
def nested : Parsed Node where
  path := none
  source := "class A{void f(){class B{int x,y;}}}".toUTF8.toList
  tree := some nestedTree
  problems := []

theorem exists_groups_of_convert_nested :
    ∃ u, convert toString (some nested) = .ok u ∧
      ∃ root, nested.tree? = some root ∧
        ∃ groups : List (Definition.Content × List Definition.Content),
          u.definitions.map Definition.toContent = groups.flatMap (fun g => g.1 :: g.2) ∧
          List.Forall₂ (fun d g => IsTypeOutline (.ofSource nested.source) d.1 d.2 g.1 g.2)
            (typesWithin none root) groups := by
  have hok : (convert toString (some nested)).isOk = true := by decide +kernel
  obtain ⟨u, hu⟩ := exists_eq_ok_of_isOk hok
  exact ⟨u, hu, exists_groups_of_convert hu⟩

end CodeOutline.Java
