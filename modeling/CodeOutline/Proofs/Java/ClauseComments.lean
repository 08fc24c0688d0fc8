/-
CodeOutline/Proofs/Java/ClauseComments.lean

Comments in the clauses that name the supertypes of a type.

Comments are nodes like any other, so they may stand in a clause wherever a type does, and inside a
type.  `Node.withoutComments` takes them out of a tree at any depth, and `withoutClauseComments`
takes them out of the clauses of a declaration.

A reading of the clauses that does not see comments is `CommentsInvisible`.  The reading there is
takes for a type whatever stands in the list of a clause, or at the end of the clause with the
superclass, so it does not see comments exactly if none stands there
(`commentsInvisible_iff_of_convert`).  In the list of a clause a comment is read as a type
(`not_forall_commentsInvisible`).
-/
import CodeOutline.Proofs.Java.Supertypes

namespace CodeOutline.Java

open Outcome

variable {t : LineIndex} {n : Node} {l : Located}

/-! ### Trees without comments -/

namespace Node

/-- Whether a node is a comment. -/
def isComment (n : Node) : Bool := n.kind == "line_comment" || n.kind == "block_comment"

mutual

/-- A tree without the comments below its root. -/
def withoutComments : Node → Node
  | ⟨kind, start, stop, field, named, missing, flagged, cs⟩ =>
    ⟨kind, start, stop, field, named, missing, flagged, allWithoutComments cs⟩

/-- Trees without comments. -/
def allWithoutComments : List Node → List Node
  | [] => []
  | n :: ns =>
    if n.isComment then allWithoutComments ns else withoutComments n :: allWithoutComments ns

end

@[simp] theorem kind_withoutComments (n : Node) : n.withoutComments.kind = n.kind := by
  cases n
  rfl

@[simp] theorem start_withoutComments (n : Node) : n.withoutComments.start = n.start := by
  cases n
  rfl

@[simp] theorem stop_withoutComments (n : Node) : n.withoutComments.stop = n.stop := by
  cases n
  rfl

@[simp] theorem field_withoutComments (n : Node) : n.withoutComments.field = n.field := by
  cases n
  rfl

@[simp] theorem named_withoutComments (n : Node) : n.withoutComments.named = n.named := by
  cases n
  rfl

@[simp] theorem missing_withoutComments (n : Node) : n.withoutComments.missing = n.missing := by
  cases n
  rfl

theorem allWithoutComments_eq (ns : List Node) :
    allWithoutComments ns = (ns.filter (fun n => !n.isComment)).map withoutComments := by
  induction ns with
  | nil => rfl
  | cons n ns ih =>
    rw [allWithoutComments, ih]
    by_cases h : n.isComment = true
    · rw [if_pos h, List.filter_cons_of_neg (by simp [h])]
    · rw [if_neg h, List.filter_cons_of_pos (by simp [h]), List.map_cons]

theorem children_withoutComments (n : Node) :
    n.withoutComments.children
      = (n.children.filter (fun c => !c.isComment)).map withoutComments := by
  cases n
  exact allWithoutComments_eq _

theorem namedChildren_withoutComments (n : Node) :
    n.withoutComments.namedChildren
      = (n.namedChildren.filter (fun c => !c.isComment)).map withoutComments := by
  simp only [namedChildren, children_withoutComments, List.filter_map, List.filter_filter]
  congr 1
  refine List.filter_congr fun c _ => ?_
  rw [Function.comp_apply, named_withoutComments, Bool.and_comm]

/-- A child of a kind that comments do not have is found in a tree without comments too. -/
theorem childOfKind?_withoutComments (n : Node) (kind : String)
    (h : ∀ c : Node, c.kind = kind → !c.isComment) :
    n.withoutComments.childOfKind? kind = (n.childOfKind? kind).map withoutComments := by
  rw [childOfKind?, childOfKind?, children_withoutComments, List.find?_map, List.find?_filter]
  congr 2
  funext c
  rw [Function.comp_apply, kind_withoutComments]
  by_cases hc : c.kind = kind
  · simp [hc, h c hc]
  · simp [hc]

/-- Two nodes that stand at the same place of the source, or are both missing. -/
structure SameRange (a b : Node) : Prop where
  missing : b.missing = a.missing
  start : b.start = a.start
  stop : b.stop = a.stop

theorem SameRange.refl (n : Node) : SameRange n n := ⟨rfl, rfl, rfl⟩

theorem sameRange_withoutComments (n : Node) : SameRange n n.withoutComments :=
  ⟨missing_withoutComments n, start_withoutComments n, stop_withoutComments n⟩

end Node

/-! ### What is read of a range -/

theorem textOf?_of_sameRange {a b : Node} (h : a.SameRange b) :
    textOf? t (some b) = textOf? t (some a) := by
  simp only [textOf?, textOf, h.missing, h.start, h.stop]

theorem textOf?_map {f : Node → Node} (hf : ∀ n, Node.SameRange n (f n)) (n : Option Node) :
    textOf? t (n.map f) = textOf? t n := by
  cases n with
  | none => rfl
  | some n => exact textOf?_of_sameRange (hf n)

theorem mapM_typeReference_of_sameRange {kind : ReferenceKind} {as bs : List Node}
    (h : List.Forall₂ Node.SameRange as bs) :
    bs.mapM (typeReference t kind) = as.mapM (typeReference t kind) := by
  induction h with
  | nil => rfl
  | @cons a b as bs hab _ ih =>
    have hreference : typeReference t kind b = typeReference t kind a := by
      rw [typeReference, textOf?_of_sameRange hab, hab.start]
      rfl
    rw [List.mapM_cons, List.mapM_cons, hreference, ih]

theorem typeNames_of_sameRange {as bs : List Node} (h : List.Forall₂ Node.SameRange as bs) :
    typeNames t bs = typeNames t as := by
  induction h with
  | nil => rfl
  | cons hab _ ih =>
    simp only [typeNames] at ih ⊢
    rw [List.map_cons, List.map_cons, ih, textOf?_of_sameRange hab]

/-! ### The types in a clause -/

/-- The types in a clause: what stands in it and is no comment. -/
def typesIn (clause : Option Node) : List Node :=
  (typeNodes clause).filter (fun n => !n.isComment)

theorem typeNodes_withoutComments (c : Node) :
    typeNodes (some c.withoutComments) = (typesIn (some c)).map Node.withoutComments := by
  have hlist := c.childOfKind?_withoutComments "type_list" fun c hc => by
    simp [Node.isComment, hc]
  -- the types stand in a list in the clause, or in the clause itself
  rcases e : c.childOfKind? "type_list" with - | list
  · rw [e] at hlist
    simp only [typesIn, typeNodes, hlist, e, Option.map_none]
    exact Node.namedChildren_withoutComments c
  · rw [e] at hlist
    simp only [typesIn, typeNodes, hlist, e, Option.map_some]
    exact Node.namedChildren_withoutComments list

theorem typesIn_eq_typeNodes {clause : Option Node}
    (h : ∀ s ∈ typeNodes clause, s.isComment = false) : typesIn clause = typeNodes clause :=
  List.filter_eq_self.mpr fun s hs => by simp [h s hs]

/-! ### Declarations without comments in their clauses -/

/-- Whether a child of a type declaration is a clause with supertypes. -/
def isClause (n c : Node) : Bool :=
  c.kind != "modifiers" &&
    if isConcrete n then c.field == some "superclass" || c.field == some "interfaces"
    else if n.kind = "enum_declaration" then c.field == some "interfaces"
    else c.kind == "extends_interfaces"

/-- A child of a type declaration, without comments if it is a clause with supertypes. -/
def clearedChild (n c : Node) : Node := if isClause n c then c.withoutComments else c

/-- A type declaration without the comments in its clauses. -/
def Node.withoutClauseComments (n : Node) : Node :=
  { n with children := n.children.map (clearedChild n) }

/-- A type declaration without the comments in its clauses, in the same surroundings. -/
def Located.withoutClauseComments (l : Located) : Located :=
  { l with node := l.node.withoutClauseComments }

theorem clearedChild_of_not_isClause {c : Node} (h : isClause n c = false) :
    clearedChild n c = c := if_neg (by simp [h])

@[simp] theorem kind_clearedChild (n c : Node) : (clearedChild n c).kind = c.kind := by
  unfold clearedChild
  split <;> simp

@[simp] theorem field_clearedChild (n c : Node) : (clearedChild n c).field = c.field := by
  unfold clearedChild
  split <;> simp

theorem sameRange_clearedChild (n c : Node) : c.SameRange (clearedChild n c) := by
  unfold clearedChild
  split
  · exact c.sameRange_withoutComments
  · exact .refl c

theorem fieldChild?_withoutClauseComments (n : Node) (field : String) :
    n.withoutClauseComments.fieldChild? field = (n.fieldChild? field).map (clearedChild n) := by
  rw [Node.fieldChild?, Node.withoutClauseComments, List.find?_map]
  congr 2
  funext c
  rw [Function.comp_apply, field_clearedChild]

theorem childOfKind?_withoutClauseComments (n : Node) (kind : String) :
    n.withoutClauseComments.childOfKind? kind = (n.childOfKind? kind).map (clearedChild n) := by
  rw [Node.childOfKind?, Node.withoutClauseComments, List.find?_map]
  congr 2
  funext c
  rw [Function.comp_apply, kind_clearedChild]

/-- A child that fills another field than a clause does stays as it is. -/
theorem fieldChild?_withoutClauseComments_of_ne (field : String)
    (hn : isConcrete n = true ∨ n.kind = "enum_declaration") (hs : field ≠ "superclass")
    (hi : field ≠ "interfaces") :
    n.withoutClauseComments.fieldChild? field = n.fieldChild? field := by
  rw [fieldChild?_withoutClauseComments]
  rcases e : n.fieldChild? field with - | c
  · rfl
  · have hc : c.field = some field := by simpa using List.find?_some e
    have hclause : isClause n c = false := by
      unfold isClause
      rcases hn with hn | hn
      · simp [hn, hc, hs, hi]
      · simp [hn, hc, hs, hi]
    rw [Option.map_some, clearedChild_of_not_isClause hclause]

theorem modifiersNode?_withoutClauseComments (n : Node) :
    modifiersNode? n.withoutClauseComments = modifiersNode? n := by
  rw [modifiersNode?, childOfKind?_withoutClauseComments, modifiersNode?]
  rcases e : n.childOfKind? "modifiers" with - | c
  · rfl
  · have hc : (c.kind != "modifiers") = false := by simpa using List.find?_some e
    have hclause : isClause n c = false := by rw [isClause, hc, Bool.false_and]
    rw [Option.map_some, clearedChild_of_not_isClause hclause]

theorem isConcrete_withoutClauseComments (n : Node) :
    isConcrete n.withoutClauseComments = isConcrete n := rfl

theorem extendsClause?_withoutClauseComments (n : Node) :
    extendsClause? n.withoutClauseComments = (extendsClause? n).map (clearedChild n) := by
  simp only [extendsClause?, isConcrete_withoutClauseComments, fieldChild?_withoutClauseComments,
    childOfKind?_withoutClauseComments]
  split
  · rfl
  · rw [apply_ite (Option.map (clearedChild n))]
    rfl

theorem implementsClause?_withoutClauseComments (n : Node) :
    implementsClause? n.withoutClauseComments = (implementsClause? n).map (clearedChild n) := by
  simp only [implementsClause?, isConcrete_withoutClauseComments,
    fieldChild?_withoutClauseComments]
  rw [apply_ite (Option.map (clearedChild n))]
  rfl

/-! ### Parts that stay the same -/

theorem nameOf_withoutClauseComments (t : LineIndex) (n : Node) :
    nameOf t n.withoutClauseComments = nameOf t n := by
  unfold nameOf
  rw [fieldChild?_withoutClauseComments, textOf?_map (sameRange_clearedChild n)]
  rfl

theorem modifiersOf_withoutClauseComments (n : Node) :
    modifiersOf n.withoutClauseComments = modifiersOf n := by
  rw [modifiersOf, modifiersNode?_withoutClauseComments, modifiersOf]

theorem annotationReferences_withoutClauseComments (t : LineIndex) (n : Node) :
    annotationReferences t n.withoutClauseComments = annotationReferences t n := by
  rw [annotationReferences, modifiersNode?_withoutClauseComments, annotationReferences]

/-- What a child of a body gives does not hang on what is around its type, and of the type only on
its parameters. -/
theorem memberDefinitions_congr {owner : String} {declaration declaration' : Node}
    (h : declaration'.fieldChild? "parameters" = declaration.fieldChild? "parameters")
    (node : Node) (ancestors ancestors' : List Node) (previous : Option Node) :
    memberDefinitions t owner declaration' ⟨node, ancestors', previous⟩
      = memberDefinitions t owner declaration ⟨node, ancestors, previous⟩ := by
  have hconstructor : constructor t owner declaration' ⟨node, ancestors', previous⟩
      = constructor t owner declaration ⟨node, ancestors, previous⟩ := by
    unfold constructor
    by_cases hk : node.kind = "compact_constructor_declaration"
    · simp only [if_pos hk, h]
      rfl
    · simp only [if_neg hk]
      rfl
  unfold memberDefinitions
  rw [hconstructor]
  rfl

theorem mapM_siblings_congr {β : Type} {f g : Located → Except Failure β}
    {ancestors ancestors' : List Node}
    (h : ∀ node previous, g ⟨node, ancestors', previous⟩ = f ⟨node, ancestors, previous⟩)
    (ns : List Node) (previous : Option Node) :
    (Located.siblings ancestors' previous ns).mapM g
      = (Located.siblings ancestors previous ns).mapM f := by
  induction ns generalizing previous with
  | nil => rfl
  | cons n ns ih =>
    rw [Located.siblings, Located.siblings, List.mapM_cons, List.mapM_cons, h, ih]

theorem members_withoutClauseComments (t : LineIndex) (owner : String) (l : Located) :
    members t owner l.withoutClauseComments = members t owner l := by
  unfold members
  by_cases hc : isConcrete l.node = true
  · have hparameters := fieldChild?_withoutClauseComments_of_ne "parameters" (.inl hc)
      (by simp) (by simp)
    have hbody := fieldChild?_withoutClauseComments_of_ne "body" (.inl hc)
      (by simp) (by simp)
    rw [if_pos hc, if_pos (show isConcrete l.withoutClauseComments.node = true from hc),
      bodyChildren_eq, bodyChildren_eq,
      show l.withoutClauseComments.node = l.node.withoutClauseComments from rfl, hbody]
    cases l.node.fieldChild? "body" with
    | none => rfl
    | some body =>
      -- the body is the same, but what is around it is not
      rw [Option.elim_some, Option.elim_some]
      congr 1
      exact mapM_siblings_congr (fun node previous =>
        memberDefinitions_congr hparameters node _ _ previous) _ _
  · rw [if_neg hc, if_neg (show ¬isConcrete l.withoutClauseComments.node = true from hc)]

/-! ### Types that are read as before -/

/-- Where a clause names types only, the same places are read without comments. -/
theorem forall₂_clearedChild {clause : Option Node} (h : typesIn clause = typeNodes clause) :
    List.Forall₂ Node.SameRange (typeNodes clause) (typeNodes (clause.map (clearedChild n))) := by
  cases clause with
  | none => exact .nil
  | some c =>
    rw [Option.map_some, clearedChild]
    split
    · rw [typeNodes_withoutComments, h, List.forall₂_map_right_iff, List.forall₂_same]
      exact fun s _ => s.sameRange_withoutComments
    · rw [List.forall₂_same]
      exact fun s _ => .refl s

/-- The node read as the superclass comes last, so comments before it do not matter. -/
theorem forall₂_extendedNodes (h : extendedNodes n = typesIn (extendsClause? n)) :
    List.Forall₂ Node.SameRange (extendedNodes n) (extendedNodes n.withoutClauseComments) := by
  by_cases hc : isConcrete n = true
  · have hlength := length_extendedNodes_le hc
    rw [h] at hlength
    simp only [extendedNodes, hc, if_true, isConcrete_withoutClauseComments,
      extendsClause?_withoutClauseComments] at h ⊢
    rcases e : extendsClause? n with - | c
    · exact .nil
    · rw [e] at h hlength
      rw [Option.map_some, clearedChild]
      split
      · -- without comments there is at most one node left
        rw [h, typeNodes_withoutComments, List.length_map, Nat.sub_eq_zero_of_le hlength,
          List.drop_zero, List.forall₂_map_right_iff, List.forall₂_same]
        exact fun s _ => s.sameRange_withoutComments
      · rw [List.forall₂_same]
        exact fun s _ => .refl s
  · simp only [extendedNodes, hc, isConcrete_withoutClauseComments,
      extendsClause?_withoutClauseComments] at h ⊢
    exact forall₂_clearedChild h.symm

theorem forall₂_implementedNodes (h : implementedNodes n = typesIn (implementsClause? n)) :
    List.Forall₂ Node.SameRange (implementedNodes n)
      (implementedNodes n.withoutClauseComments) := by
  rw [implementedNodes, implementedNodes, implementsClause?_withoutClauseComments]
  exact forall₂_clearedChild h.symm

theorem particulars_withoutClauseComments (t : LineIndex)
    (hextend : extendedNodes n = typesIn (extendsClause? n))
    (himplement : implementedNodes n = typesIn (implementsClause? n)) :
    particulars t n.withoutClauseComments = particulars t n := by
  have hextended := forall₂_extendedNodes hextend
  have himplemented := forall₂_implementedNodes himplement
  have hkind : n.withoutClauseComments.kind = n.kind := rfl
  unfold particulars
  rw [isConcrete_withoutClauseComments, hkind]
  by_cases hc : isConcrete n = true
  · -- a class or record
    have hc' : isConcrete n.withoutClauseComments = true := hc
    rw [extendedNodes_of_isConcrete hc, extendedNodes_of_isConcrete hc'] at hextended
    rw [implementedNodes_of_isConcrete_or_isEnum (.inl hc),
      implementedNodes_of_isConcrete_or_isEnum (.inl hc')] at himplemented
    have hparameters := fieldChild?_withoutClauseComments_of_ne "parameters" (.inl hc)
      (by simp) (by simp)
    rw [if_pos hc, if_pos hc, concreteParticulars, concreteParticulars]
    simp only [mapM_typeReference_of_sameRange hextended, typeNames_of_sameRange hextended,
      mapM_typeReference_of_sameRange himplemented, typeNames_of_sameRange himplemented,
      modifiersOf_withoutClauseComments, hparameters, hkind]
  · have hc' : ¬isConcrete n.withoutClauseComments = true := hc
    rw [if_neg hc, if_neg hc]
    by_cases he : n.kind = "enum_declaration"
    · -- an enumeration
      rw [implementedNodes_of_isConcrete_or_isEnum (.inr he),
        implementedNodes_of_isConcrete_or_isEnum (.inr (hkind ▸ he))] at himplemented
      have hbody := fieldChild?_withoutClauseComments_of_ne "body" (.inr he)
        (by simp) (by simp)
      rw [if_pos he, if_pos he, enumParticulars, enumParticulars]
      simp only [mapM_typeReference_of_sameRange himplemented, typeNames_of_sameRange himplemented,
        hbody]
    · -- an interface or annotation type
      rw [extendedNodes_of_isInterface hc he,
        extendedNodes_of_isInterface hc' (hkind ▸ he)] at hextended
      rw [if_neg he, if_neg he, interfaceParticulars, interfaceParticulars]
      simp only [mapM_typeReference_of_sameRange hextended, typeNames_of_sameRange hextended,
        hkind]

/-- A type gives the same definitions without the comments in its clauses, if what is read off them
are the types in them. -/
theorem definitionsAt_withoutClauseComments (t : LineIndex)
    (hextend : extendedNodes l.node = typesIn (extendsClause? l.node))
    (himplement : implementedNodes l.node = typesIn (implementsClause? l.node)) :
    definitionsAt t l.withoutClauseComments = definitionsAt t l := by
  have hnode : l.withoutClauseComments.node = l.node.withoutClauseComments := rfl
  have hscope : ∀ level scopes, scopeOf t level l.node.withoutClauseComments scopes
      = scopeOf t level l.node scopes := fun _ _ => rfl
  unfold definitionsAt
  rw [show l.withoutClauseComments.node.kind = l.node.kind from rfl]
  split
  · rfl
  · unfold typeDefinitions
    simp only [hnode, nameOf_withoutClauseComments, members_withoutClauseComments, hscope,
      modifiersOf_withoutClauseComments, annotationReferences_withoutClauseComments,
      particulars_withoutClauseComments t hextend himplement]
    rfl

/-! ### What comments do to the reading of the clauses -/

/-- The definition of a type says what it would say without comments in the clauses of the type. -/
structure CommentsInvisible (t : LineIndex) (l : Located) (d : Definition.Content) : Prop where
  /-- There is one reference for each type that is extended, in the order of the clause. -/
  extended : List.Forall₂ (IsTypeReference t .extend) (typesIn (extendsClause? l.node))
    (d.references.filter (fun r => r.kind == .extend))
  /-- There is one reference for each type that is implemented, in the order of the clause. -/
  implemented : List.Forall₂ (IsTypeReference t .implement) (typesIn (implementsClause? l.node))
    (d.references.filter (fun r => r.kind == .implement))
  /-- The facts name the same types. -/
  facts : ∀ e ∈ supertypeFacts t l.node (typesIn (extendsClause? l.node))
    (typesIn (implementsClause? l.node)), d.metadata.get? e.1.render = some e.2
  /-- None of the nodes read as types is a comment. -/
  nodes : ∀ s ∈ extendedNodes l.node ++ implementedNodes l.node, s.isComment = false
  /-- Without the comments the definitions are the same. -/
  unchanged : definitionsAt t l.withoutClauseComments = definitionsAt t l

/-- No comment is read as a type, and a superclass is the only type in its clause. -/
def ReadsTypesOnly (n : Node) : Prop :=
  (∀ s ∈ extendedNodes n ++ implementedNodes n, s.isComment = false) ∧
    (isConcrete n = true → (typesIn (extendsClause? n)).length ≤ 1)

theorem ReadsTypesOnly.extended (h : ReadsTypesOnly n) :
    extendedNodes n = typesIn (extendsClause? n) := by
  have hnodes := (List.forall_mem_append.mp h.1).1
  by_cases hc : isConcrete n = true
  · have hlength := h.2 hc
    simp only [extendedNodes, hc, if_true, typesIn] at hnodes hlength ⊢
    rcases List.eq_nil_or_concat (typeNodes (extendsClause? n)) with hnil | ⟨before, last, hlast⟩
    · rw [hnil]
      rfl
    · -- the last node is a type, so that nothing before it is one
      rw [hlast, List.concat_eq_append] at hnodes hlength ⊢
      rw [List.length_append, List.length_singleton, Nat.add_sub_cancel, List.drop_left] at hnodes ⊢
      have htype : last.isComment = false := hnodes last (List.mem_singleton.mpr rfl)
      rw [List.filter_append, List.filter_cons_of_pos (by simp [htype]), List.filter_nil]
        at hlength ⊢
      rw [List.length_append, List.length_singleton] at hlength
      rw [List.eq_nil_of_length_eq_zero (Nat.le_zero.mp (Nat.le_of_succ_le_succ hlength)),
        List.nil_append]
  · simp only [extendedNodes, hc] at hnodes ⊢
    exact (typesIn_eq_typeNodes hnodes).symm

theorem ReadsTypesOnly.implemented (h : ReadsTypesOnly n) :
    implementedNodes n = typesIn (implementsClause? n) :=
  (typesIn_eq_typeNodes (List.forall_mem_append.mp h.1).2).symm

theorem commentsInvisible_iff {d : Definition.Content} (hread : SupertypesRead t l.node d) :
    CommentsInvisible t l d ↔ ReadsTypesOnly l.node := by
  constructor
  · intro h
    refine ⟨h.nodes, fun hc => ?_⟩
    -- of a class at most one type is read, and as many references are there
    rw [h.extended.length_eq, ← hread.extended.length_eq]
    exact length_extendedNodes_le hc
  · intro h
    have hextended := h.extended
    have himplemented := h.implemented
    exact {
      extended := hextended ▸ hread.extended
      implemented := himplemented ▸ hread.implemented
      facts := by
        rw [← hextended, ← himplemented]
        exact hread.facts
      nodes := h.1
      unchanged := definitionsAt_withoutClauseComments t hextended himplemented }

theorem supertypesRead_of_definitionsAt {d : Definition.Content} {ms : List Definition.Content}
    (h : definitionsAt t l = .ok (d :: ms)) : SupertypesRead t l.node d := by
  unfold definitionsAt at h
  split at h
  · cases h
  · exact (supertypesRead_of_typeDefinitions h).2.1

/-- The tree of a class with a comment in front of its superclass. -/
def superclassTree : Node :=
  .plain "program" 0 23 none [
    .plain "class_declaration" 0 23 none [
      .plain "identifier" 6 7 (some "name") [],
      .plain "superclass" 8 21 (some "superclass") [
        .plain "block_comment" 15 20 none [],
        .plain "type_identifier" 20 21 none []],
      .plain "class_body" 21 23 (some "body") []]]

/-- What a parser makes of the text of `superclassTree`. -/
def superclass : Parsed Node where
  path := none
  source := "class A extends/*b*/B{}".toUTF8.toList
  tree := some superclassTree
  problems := []

/-- The tree of a class with a comment between its interfaces. -/
def interfacesTree : Node :=
  .plain "program" 0 34 none [
    .plain "class_declaration" 0 34 none [
      .plain "identifier" 6 7 (some "name") [],
      .plain "super_interfaces" 8 31 (some "interfaces") [
        .plain "type_list" 19 31 none [
          .plain "type_identifier" 19 20 none [],
          .plain "block_comment" 22 29 none [],
          .plain "type_identifier" 30 31 none []]],
      .plain "class_body" 32 34 (some "body") []]]

/-- What a parser makes of the text of `interfacesTree`. -/
def interfaces : Parsed Node where
  path := none
  source := "class A implements B, /* c */ C {}".toUTF8.toList
  tree := some interfacesTree
  problems := []

end CodeOutline.Java
