/-
CodeOutline/Proofs/Java/WellFormed.lean

Trees that always have an outline.

`WellFormed` asks of a tree that its nodes lie inside each other on boundaries of characters, and
of the parts that a type declaration is read by (`IsReadableType`) that they are there and have
text.  Then no step of the conversion fails (`exists_convert`).

Names and supertypes are there by assumption.  For the scopes it has to be shown that a scope does
not end before it begins and that those of members lie within that of their type: nodes that lie
inside each other have positions in the same order, since their ends are cuts of the source.
-/
import CodeOutline.Proofs.Java.Arrangement
import CodeOutline.Proofs.Java.TypeName
import CodeOutline.Proofs.Source.Place

namespace CodeOutline.Java

open Outcome
open Text.Utf8 (Octets IsBoundary IsCut)

/-! ### What is read of a declaration -/

/-- A node is there and has text that is not blank. -/
def HasText (t : LineIndex) (n : Option Node) : Prop :=
  ((textOf? t n).getD []).all Text.isBlank = false

instance (t : LineIndex) (n : Option Node) : Decidable (HasText t n) :=
  inferInstanceAs (Decidable (_ = false))

/-- The annotations of a declaration. -/
def annotationNodes (n : Node) : List Node :=
  match modifiersNode? n with
  | none => []
  | some m => m.children.filter isAnnotation

/-- The parameters of a member; a compact constructor has those of its record. -/
def memberParameters (declaration c : Node) : List Node :=
  if c.kind = "field_declaration" then []
  else if c.kind = "compact_constructor_declaration" then
    parameterNodes (declaration.fieldChild? "parameters")
  else parameterNodes (c.fieldChild? "parameters")

/-- The constants of an enumeration. -/
def constantNodes (n : Node) : List Node :=
  ((n.fieldChild? "body").elim [] Node.namedChildren).filter (fun c => c.kind == "enum_constant")

/-- The types that a type extends and implements: of several superclasses the last one. -/
def supertypeNodes (n : Node) : List Node :=
  if isConcrete n then
    let supertypes := typeNodes (n.fieldChild? "superclass")
    supertypes.drop (supertypes.length - 1) ++ typeNodes (n.fieldChild? "interfaces")
  else if n.kind = "enum_declaration" then typeNodes (n.fieldChild? "interfaces")
  else typeNodes (n.childOfKind? "extends_interfaces")

/-- A declaration with the node that has its name: it has a range, and it and its annotations have
names. -/
structure IsReadable (t : LineIndex) (m : Node × Node) : Prop where
  present : m.1.missing = false
  range : m.1.start < m.1.stop
  name : HasText t (m.2.fieldChild? "name")
  annotations : ∀ a ∈ annotationNodes m.1, HasText t (a.fieldChild? "name")

/-- A member of a type: its parameters have names, and a method has a type. -/
structure IsReadableMember (t : LineIndex) (declaration : Node) (m : Node × Node) : Prop
    extends IsReadable t m where
  parameters : ∀ p ∈ memberParameters declaration m.1, HasText t (p.fieldChild? "name")
  returnType : m.1.kind = "method_declaration" → HasText t (m.1.fieldChild? "type")

/-- A type: its members are readable, its components and constants have names, and so have the
types it extends and implements. -/
structure IsReadableType (t : LineIndex) (n : Node) : Prop extends IsReadable t (n, n) where
  members : ∀ m ∈ memberNodes n, IsReadableMember t n m
  components : n.kind = "record_declaration" →
    ∀ p ∈ parameterNodes (n.fieldChild? "parameters"), HasText t (p.fieldChild? "name")
  constants : n.kind = "enum_declaration" →
    ∀ c ∈ constantNodes n, HasText t (c.fieldChild? "name")
  supertypes : ∀ s ∈ supertypeNodes n, simpleName ((textOf? t (some s)).getD []) ≠ []

/-- A tree over a source: its nodes lie inside each other on boundaries of characters, and its
types are readable. -/
structure WellFormed (source : Octets) (root : Node) : Prop where
  boundaries : ∀ n, Below root n → IsBoundary source n.start ∧ IsBoundary source n.stop
  nested : ∀ n, Below root n → ∀ c ∈ n.children, n.start ≤ c.start ∧ c.stop ≤ n.stop
  types : ∀ n, Below root n → isType n = true → IsReadableType (.ofSource source) n

variable {bs : Octets} {t : LineIndex}

instance (t : LineIndex) (m : Node × Node) : Decidable (IsReadable t m) :=
  decidable_of_iff
    (m.1.missing = false ∧ m.1.start < m.1.stop ∧ HasText t (m.2.fieldChild? "name") ∧
      ∀ a ∈ annotationNodes m.1, HasText t (a.fieldChild? "name"))
    ⟨fun ⟨h₁, h₂, h₃, h₄⟩ => ⟨h₁, h₂, h₃, h₄⟩, fun ⟨h₁, h₂, h₃, h₄⟩ => ⟨h₁, h₂, h₃, h₄⟩⟩

instance (t : LineIndex) (declaration : Node) (m : Node × Node) :
    Decidable (IsReadableMember t declaration m) :=
  decidable_of_iff
    (IsReadable t m ∧ (∀ p ∈ memberParameters declaration m.1, HasText t (p.fieldChild? "name")) ∧
      (m.1.kind = "method_declaration" → HasText t (m.1.fieldChild? "type")))
    ⟨fun ⟨h₁, h₂, h₃⟩ => ⟨h₁, h₂, h₃⟩, fun ⟨h₁, h₂, h₃⟩ => ⟨h₁, h₂, h₃⟩⟩

instance (t : LineIndex) (n : Node) : Decidable (IsReadableType t n) :=
  decidable_of_iff
    (IsReadable t (n, n) ∧ (∀ m ∈ memberNodes n, IsReadableMember t n m) ∧
      (n.kind = "record_declaration" →
        ∀ p ∈ parameterNodes (n.fieldChild? "parameters"), HasText t (p.fieldChild? "name")) ∧
      (n.kind = "enum_declaration" → ∀ c ∈ constantNodes n, HasText t (c.fieldChild? "name")) ∧
      ∀ s ∈ supertypeNodes n, simpleName ((textOf? t (some s)).getD []) ≠ [])
    ⟨fun ⟨h₁, h₂, h₃, h₄, h₅⟩ => ⟨h₁, h₂, h₃, h₄, h₅⟩,
      fun ⟨h₁, h₂, h₃, h₄, h₅⟩ => ⟨h₁, h₂, h₃, h₄, h₅⟩⟩

instance (source : Octets) (root : Node) : Decidable (WellFormed source root) :=
  decidable_of_iff
    ((∀ n, Below root n → IsBoundary source n.start ∧ IsBoundary source n.stop) ∧
      (∀ n, Below root n → ∀ c ∈ n.children, n.start ≤ c.start ∧ c.stop ≤ n.stop) ∧
      ∀ n, Below root n → isType n = true → IsReadableType (.ofSource source) n)
    ⟨fun ⟨h₁, h₂, h₃⟩ => ⟨h₁, h₂, h₃⟩, fun ⟨h₁, h₂, h₃⟩ => ⟨h₁, h₂, h₃⟩⟩

/-! ### Names and references -/

theorem exists_nameOf {n : Node} (h : HasText t (n.fieldChild? "name")) :
    ∃ name, nameOf t n = .ok name ∧ Text.allBlank name = false := by
  simp only [nameOf_eq_ok_iff, nameText]
  unfold HasText at h
  rcases e : textOf? t (n.fieldChild? "name") with - | cs
  · rw [e] at h
    cases h
  · rw [e] at h
    exact ⟨String.ofList cs, rfl, by rw [Text.allBlank_ofList]; exact h⟩

theorem exists_names {ns : List Node} (h : ∀ n ∈ ns, HasText t (n.fieldChild? "name")) :
    ∃ names, ns.mapM (nameOf t) = .ok names := by
  apply exists_mapM_eq_ok
  intro n hn
  obtain ⟨name, hname, -⟩ := exists_nameOf (h n hn)
  exact ⟨name, hname⟩

theorem exists_annotationReferences {n : Node}
    (h : ∀ a ∈ annotationNodes n, HasText t (a.fieldChild? "name")) :
    ∃ rs, annotationReferences t n = .ok rs := by
  unfold annotationNodes at h
  unfold annotationReferences
  rcases e : modifiersNode? n with - | m
  · exact ⟨[], rfl⟩
  · rw [e] at h
    apply exists_mapM_eq_ok
    intro a ha
    refine ⟨_, Reference.make_eq_ok_iff.mpr ⟨?_, rfl⟩⟩
    rw [Text.allBlank_ofList]
    exact Text.all_isBlank_withoutBlanks (h a ha)

theorem exists_typeReferences (kind : ReferenceKind) {ns : List Node}
    (h : ∀ s ∈ ns, simpleName ((textOf? t (some s)).getD []) ≠ []) :
    ∃ rs, ns.mapM (typeReference t kind) = .ok rs := by
  apply exists_mapM_eq_ok
  intro s hs
  refine ⟨_, Reference.make_eq_ok_iff.mpr ⟨?_, rfl⟩⟩
  rw [simpleName_eraseArguments]
  exact allBlank_simpleName (h s hs)

theorem typeText_ne_empty {n : Option Node} (h : HasText t n) (declarator : Node) :
    typeText t n declarator ≠ "" := by
  have hne : Text.singleSpaced ((textOf? t n).getD []) ≠ [] := by
    intro e
    rw [HasText, Text.all_isBlank_of_singleSpaced e] at h
    cases h
  have hempty : (Text.singleSpaced ((textOf? t n).getD [])).isEmpty = false := by
    simpa using hne
  unfold typeText
  simp only [hempty]
  split
  · simp [hne]
  · simp [hne]

/-! ### Members -/

theorem exists_scopeOf (level : ScopeLevel) {n : Node} (children : List Scope)
    (hm : n.missing = false) (hlt : n.start < n.stop) (hstart : IsCut bs n.start)
    (hstop : IsCut bs n.stop)
    (hin : ∀ c ∈ children, c.start.isBefore ((LineIndex.ofSource bs).position n.start) = false ∧
      ((LineIndex.ofSource bs).lastPosition n.stop).isBefore c.stop = false) :
    ∃ s, scopeOf (.ofSource bs) level n children = .ok s :=
  ⟨_, scopeOf_eq_ok_iff.mpr ⟨hm, hlt,
    LineIndex.not_lastPosition_isBefore_position hstart hstop hlt, hin, rfl⟩⟩

theorem exists_frame {l : Located} {m : Node} (h : IsReadable (.ofSource bs) (l.node, m))
    (hstart : IsCut bs l.node.start) (hstop : IsCut bs l.node.stop) :
    ∃ f, frame (.ofSource bs) l = .ok f := by
  obtain ⟨scope, hscope⟩ := exists_scopeOf (memberLevel (modifiersOf l.node)) [] h.present h.range
    hstart hstop (by simp)
  obtain ⟨documentation, hdocumentation⟩ := exists_documentationOf (.ofSource bs) l
  obtain ⟨references, hreferences⟩ := exists_annotationReferences h.annotations
  exact ⟨⟨scope, documentation, references⟩,
    frame_eq_ok_iff.mpr ⟨hscope, hdocumentation, hreferences⟩⟩

theorem exists_method {owner : String} {l : Located} {declaration : Node}
    (hk : l.node.kind = "method_declaration")
    (h : IsReadableMember (.ofSource bs) declaration (l.node, l.node))
    (hstart : IsCut bs l.node.start) (hstop : IsCut bs l.node.stop) :
    ∃ d, method (.ofSource bs) owner l = .ok d := by
  obtain ⟨name, hname, hblank⟩ := exists_nameOf h.name
  obtain ⟨f, hf⟩ := exists_frame h.toIsReadable hstart hstop
  obtain ⟨names, hnames⟩ := exists_names h.parameters
  have htype := typeText_ne_empty (h.returnType hk) l.node
  simp only [memberParameters, hk] at hnames
  simp only [method, bind_eq_ok_iff, mapError_eq_ok_iff, needed_eq_ok_iff, parameterNames_eq,
    member_eq_ok_iff]
  exact ⟨_, name, hname, _, by simp [htype]; rfl, f, hf, names, hnames, hblank, rfl⟩

theorem exists_constructor {owner : String} {l : Located} {declaration : Node}
    (hk : isConstructor l.node = true)
    (h : IsReadableMember (.ofSource bs) declaration (l.node, l.node))
    (hstart : IsCut bs l.node.start) (hstop : IsCut bs l.node.stop) :
    ∃ d, constructor (.ofSource bs) owner declaration l = .ok d := by
  obtain ⟨name, hname, hblank⟩ := exists_nameOf h.name
  obtain ⟨f, hf⟩ := exists_frame h.toIsReadable hstart hstop
  obtain ⟨names, hnames⟩ := exists_names h.parameters
  have hparameters : memberParameters declaration l.node = parameterNodes
      ((if l.node.kind = "compact_constructor_declaration" then declaration
        else l.node).fieldChild? "parameters") := by
    simp only [isConstructor, Bool.or_eq_true, beq_iff_eq] at hk
    rcases hk with hk | hk <;> simp [memberParameters, hk]
  rw [hparameters] at hnames
  simp only [constructor, bind_eq_ok_iff, parameterNames_eq, member_eq_ok_iff]
  exact ⟨_, name, hname, f, hf, names, hnames, hblank, rfl⟩

theorem exists_variableOf {owner : String} {l : Located} {declaration declarator : Node}
    (h : IsReadableMember (.ofSource bs) declaration (l.node, declarator))
    (hstart : IsCut bs l.node.start) (hstop : IsCut bs l.node.stop) :
    ∃ d, variableOf (.ofSource bs) owner l declarator = .ok d := by
  obtain ⟨name, hname, hblank⟩ := exists_nameOf h.name
  obtain ⟨f, hf⟩ := exists_frame h.toIsReadable hstart hstop
  simp only [variableOf, bind_eq_ok_iff, member_eq_ok_iff]
  exact ⟨_, name, hname, f, hf, hblank, rfl⟩

theorem exists_memberDefinitions {owner : String} {l : Located} {declaration : Node}
    (h : ∀ m ∈ membersAt l.node, IsReadableMember (.ofSource bs) declaration m)
    (hstart : IsCut bs l.node.start) (hstop : IsCut bs l.node.stop) :
    ∃ ds, memberDefinitions (.ofSource bs) owner declaration l = .ok ds := by
  unfold membersAt at h
  unfold memberDefinitions
  -- a method, a constructor, the variables of a field, or nothing
  split
  · exact ⟨[], rfl⟩
  · next hn =>
    rw [if_neg hn] at h
    split
    · next hk =>
      rw [if_pos (by simp [hk])] at h
      obtain ⟨d, hd⟩ := exists_method hk (h _ List.mem_cons_self) hstart hstop
      exact ⟨[d], by rw [hd]; rfl⟩
    · next hk =>
      split
      · next hc =>
        rw [if_pos (by simp [hc])] at h
        obtain ⟨d, hd⟩ := exists_constructor hc (h _ List.mem_cons_self) hstart hstop
        exact ⟨[d], by rw [hd]; rfl⟩
      · next hc =>
        rw [if_neg (by simp [hk, hc])] at h
        split
        · next hf =>
          rw [if_pos hf] at h
          apply exists_mapM_eq_ok
          intro declarator hmem
          exact exists_variableOf (h _ (List.mem_map_of_mem hmem)) hstart hstop
        · exact ⟨[], rfl⟩

/-- A member of a type stands in a body of the type. -/
theorem exists_body_of_mem_memberNodes {n : Node} {m : Node × Node} (h : m ∈ memberNodes n) :
    ∃ body ∈ n.children, ∃ c ∈ body.children, m ∈ membersAt c := by
  unfold memberNodes at h
  split at h
  · rcases e : n.fieldChild? "body" with - | body
    · rw [e] at h
      cases h
    · rw [e] at h
      obtain ⟨c, hc, hm⟩ := List.mem_flatMap.mp h
      exact ⟨body, mem_children_of_fieldChild? e, c, hc, hm⟩
  · cases h

theorem fst_of_mem_membersAt {c : Node} {m : Node × Node} (h : m ∈ membersAt c) : m.1 = c := by
  unfold membersAt at h
  split at h
  · cases h
  · split at h
    · rw [List.mem_singleton.mp h]
    · split at h
      · obtain ⟨d, -, rfl⟩ := List.mem_map.mp h
        rfl
      · cases h

theorem exists_members {root : Node} (owner : String) {l : Located}
    (hw : WellFormed bs root) (hl : Below root l.node) (ht : isType l.node = true) :
    ∃ ds, members (.ofSource bs) owner l = .ok ds := by
  unfold members
  split
  · next hc =>
    have hmembers : ∃ dss, (bodyChildren l).mapM (memberDefinitions (.ofSource bs) owner l.node)
        = .ok dss := by
      apply exists_mapM_eq_ok
      intro c hmem
      have hnode : c.node ∈ (bodyChildren l).map Located.node := List.mem_map_of_mem hmem
      rw [map_node_bodyChildren] at hnode
      rcases e : l.node.fieldChild? "body" with - | body
      · rw [e] at hnode
        cases hnode
      · rw [e] at hnode
        have hbelow : Below root c.node :=
          (hl.of_mem (mem_children_of_fieldChild? e)).of_mem hnode
        have hcuts := hw.boundaries _ hbelow
        refine exists_memberDefinitions (fun m hm => ?_) hcuts.1.isCut hcuts.2.isCut
        apply (hw.types _ hl ht).members
        rw [memberNodes, if_pos hc, e]
        exact List.mem_flatMap.mpr ⟨c.node, hnode, hm⟩
    obtain ⟨dss, hdss⟩ := hmembers
    exact ⟨dss.flatten, by rw [hdss]; rfl⟩
  · exact ⟨[], rfl⟩

/-! ### Types -/

theorem exists_particulars {n : Node} (h : IsReadableType t n) :
    ∃ ps, particulars t n = .ok ps := by
  -- each kind of type names its supertypes in clauses of its own
  have hsuper := h.supertypes
  unfold supertypeNodes at hsuper
  unfold particulars
  split
  · next hc =>
    -- a class or record
    rw [if_pos hc] at hsuper
    obtain ⟨extend, hextend⟩ := exists_typeReferences .extend
      fun s hs => hsuper s (List.mem_append_left _ hs)
    obtain ⟨implement, himplement⟩ := exists_typeReferences .implement
      fun s hs => hsuper s (List.mem_append_right _ hs)
    simp only [concreteParticulars, hextend, himplement, built_ok, ok_bind, parameterNames_eq]
    split
    · next hr =>
      obtain ⟨names, hnames⟩ := exists_names (h.components hr)
      rw [hnames]
      exact ⟨_, rfl⟩
    · exact ⟨_, rfl⟩
  · next hc =>
    rw [if_neg hc] at hsuper
    split
    · next he =>
      -- an enumeration
      rw [if_pos he] at hsuper
      obtain ⟨names, hnames⟩ := exists_names (h.constants he)
      obtain ⟨implement, himplement⟩ := exists_typeReferences .implement hsuper
      rw [constantNodes] at hnames
      simp only [enumParticulars, hnames, himplement, built_ok, ok_bind]
      exact ⟨_, rfl⟩
    · next he =>
      -- an interface or annotation type
      rw [if_neg he] at hsuper
      obtain ⟨extend, hextend⟩ := exists_typeReferences .extend hsuper
      simp only [interfaceParticulars, hextend, built_ok, ok_bind]
      exact ⟨_, rfl⟩

theorem exists_declaringType {root : Node} {l : Located} (hw : WellFormed bs root)
    (hl : Located.Inside root l) : ∃ facts, declaringType (.ofSource bs) l = .ok facts := by
  unfold declaringType
  split
  · exact ⟨[], rfl⟩
  · next o e =>
    have ho : Below root o := hl.ancestors o (List.mem_of_find?_eq_some e)
    obtain ⟨name, hname, -⟩ := exists_nameOf (hw.types o ho (List.find?_some e)).name
    exact ⟨_, by rw [hname]; rfl⟩

/-- The scopes of members lie within that of their type. -/
theorem members_within {root n : Node} {owner : String} {ds : List Definition.Content}
    (hw : WellFormed bs root) (hn : Below root n)
    (hds : List.Forall₂ (IsMember (.ofSource bs) owner) (memberNodes n) ds) :
    ∀ c ∈ ds.map (·.scope),
      c.start.isBefore ((LineIndex.ofSource bs).position n.start) = false ∧
      ((LineIndex.ofSource bs).lastPosition n.stop).isBefore c.stop = false := by
  intro c hc
  obtain ⟨d, hd, rfl⟩ := List.mem_map.mp hc
  obtain ⟨m, hm, hmd⟩ := exists_of_forall₂_of_mem hds hd
  obtain ⟨body, hbody, c, hc, hmc⟩ := exists_body_of_mem_memberNodes hm
  have hspan := hmd.span
  rw [fst_of_mem_membersAt hmc, LineIndex.span?] at hspan
  split at hspan
  · cases hspan
  · obtain ⟨hposition, hlast⟩ := Prod.mk.inj (Option.some.inj hspan)
    rw [← hposition, ← hlast]
    -- two steps inwards: from the type to its body, and from there to the member
    have hb : Below root body := hn.of_mem hbody
    obtain ⟨hnb, hbn⟩ := hw.nested n hn body hbody
    obtain ⟨hbc, hcb⟩ := hw.nested body hb c hc
    obtain ⟨hstart, hstop⟩ := hw.boundaries n hn
    obtain ⟨hcstart, hcstop⟩ := hw.boundaries c (hb.of_mem hc)
    exact ⟨LineIndex.not_position_isBefore hstart.isCut hcstart.isCut (Nat.le_trans hnb hbc),
      LineIndex.not_lastPosition_isBefore hcstop.isCut hstop.isCut (Nat.le_trans hcb hbn)⟩

theorem exists_typeDefinitions {root : Node} {kind : DefinitionKind} {l : Located}
    (hw : WellFormed bs root) (hl : Located.Inside root l)
    (hk : typeKind? l.node.kind = some kind) :
    ∃ ds, typeDefinitions (.ofSource bs) kind l = .ok ds := by
  have ht : isType l.node = true := by simp [isType, hk]
  have hr := hw.types _ hl.node ht
  obtain ⟨hstart, hstop⟩ := hw.boundaries _ hl.node
  obtain ⟨name, hname, hblank⟩ := exists_nameOf hr.name
  obtain ⟨ms, hms⟩ := exists_members name hw hl.node ht
  obtain ⟨scope, hscope⟩ := exists_scopeOf (typeLevel (modifiersOf l.node)) (ms.map (·.scope))
    hr.present hr.range hstart.isCut hstop.isCut
    (members_within hw hl.node (forall₂_isMember_of_members hms))
  obtain ⟨documentation, hdocumentation⟩ := exists_documentationOf (.ofSource bs) l
  obtain ⟨annotations, hannotations⟩ := exists_annotationReferences hr.annotations
  obtain ⟨⟨facts, references⟩, hparticulars⟩ := exists_particulars hr
  obtain ⟨declaring, hdeclaring⟩ := exists_declaringType hw hl
  exact ⟨_, typeDefinitions_eq_ok_iff.mpr ⟨name, ms, scope, documentation, annotations,
    (facts, references), declaring, hname, hms, hscope, hdocumentation, hannotations, hparticulars,
    hdeclaring, hblank, rfl⟩⟩

/-! ### Units -/

theorem exists_documentationBlocks (t : LineIndex) (root : Node) :
    ∃ ds, documentationBlocks t root = .ok ds := by
  have h : ∃ ds, (Located.walk [.ofRoot root]).mapM (fun l => commentDocumentation t l.node)
      = .ok ds := exists_mapM_eq_ok fun l _ => exists_commentDocumentation t l.node
  obtain ⟨ds, hds⟩ := h
  rw [documentationBlocks, hds]
  exact ⟨_, rfl⟩

theorem exists_definitions {root : Node} (hw : WellFormed bs root) :
    ∃ ds, definitions (.ofSource bs) root = .ok ds := by
  have h : ∃ dss, (Located.walk [.ofRoot root]).mapM (definitionsAt (.ofSource bs)) = .ok dss := by
    apply exists_mapM_eq_ok
    intro l hl
    unfold definitionsAt
    split
    · exact ⟨[], rfl⟩
    · next kind hk => exact exists_typeDefinitions hw (Located.inside_of_mem_walk hl) hk
  obtain ⟨dss, hdss⟩ := h
  rw [definitions, hdss]
  exact ⟨_, rfl⟩

/-- A parse with a well formed tree and a name that is not blank has an outline. -/
theorem exists_convert (ids : IdSource) {p : Parsed Node} {root : Node}
    (hroot : p.tree? = some root) (hname : Text.allBlank p.unitName = false)
    (hw : WellFormed p.source root) : ∃ u, convert ids (some p) = .ok u := by
  obtain ⟨ds, hds⟩ := exists_definitions hw
  obtain ⟨blocks, hblocks⟩ := exists_documentationBlocks (.ofSource p.source) root
  have ho : ∃ o, outline (.ofSource p.source) p.unitName root = .ok o ∧ o.name = p.unitName := by
    simp only [outline, hds, hblocks, built_ok, ok_bind]
    exact ⟨_, rfl, rfl⟩
  obtain ⟨o, ho, honame⟩ := ho
  rw [← honame] at hname
  exact ⟨_, convert_eq_ok_iff.mpr ⟨root, o, hroot, ho, Outline.toUnit_eq_ok_iff.mpr ⟨hname, rfl⟩⟩⟩

theorem exists_convert_nested :
    nested.tree? = some nestedTree ∧ Text.allBlank nested.unitName = false ∧
      WellFormed nested.source nestedTree ∧ ∃ u, convert toString (some nested) = .ok u := by
  have hname : Text.allBlank nested.unitName = false := by decide +kernel
  have hw : WellFormed nested.source nestedTree := by decide +kernel
  exact ⟨rfl, hname, hw, exists_convert toString rfl hname hw⟩

end CodeOutline.Java
