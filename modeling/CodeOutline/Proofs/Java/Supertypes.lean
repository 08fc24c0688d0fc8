/-
CodeOutline/Proofs/Java/Supertypes.lean

What a definition says of the types that its type extends and implements.

Two things are read off a node in a clause of supertypes: a name among the facts about the type,
and a reference (`SupertypesRead`).  The name is the simple one of the text of the node, while the
reference first has the arguments of the text erased and then takes the simple name of what is
left; both are the same, since erasing once more changes nothing.  So the facts about a type and
its references agree (`supertypesAgree_of_convert`).
-/
import CodeOutline.Proofs.Java.Arrangement
import CodeOutline.Proofs.Java.TypeName

namespace CodeOutline

/-- The names that the references of a kind point at, in order. -/
def Definition.Content.targets (c : Definition.Content) (kind : ReferenceKind) : List Value :=
  (c.references.filter (fun r => r.kind == kind)).map Reference.targetName

namespace Java

open Outcome

variable {t : LineIndex}

/-! ### References to types -/

/-- The text that names a type. -/
def namingText (t : LineIndex) (n : Node) : List Char := (textOf? t (some n)).getD []

/-- A reference of a kind is to the type that a node names, and stands where the node begins. -/
structure IsTypeReference (t : LineIndex) (kind : ReferenceKind) (n : Node) (r : Reference) :
    Prop where
  kind : r.kind = kind
  target : r.targetName = .text (String.ofList (simpleName (namingText t n)))
  qualified : r.metadata.get? "qualifiedName"
    = some (.text (String.ofList (eraseArguments (namingText t n))))
  position : r.position = some (t.position n.start)

theorem isTypeReference_of_typeReference {kind : ReferenceKind} {n : Node} {r : Reference}
    (h : typeReference t kind n = .ok r) : IsTypeReference t kind n r := by
  obtain ⟨-, rfl⟩ := Reference.make_eq_ok_iff.mp h
  exact {
    kind := rfl
    target := by
      show Value.text (String.ofList (simpleName (eraseArguments (namingText t n)))) = _
      rw [simpleName_eraseArguments]
    qualified := rfl
    position := rfl }

theorem forall₂_isTypeReference {kind : ReferenceKind} {ns : List Node} {rs : List Reference}
    (h : ns.mapM (typeReference t kind) = .ok rs) :
    List.Forall₂ (IsTypeReference t kind) ns rs :=
  (mapM_eq_ok_iff.mp h).imp fun _ _ => isTypeReference_of_typeReference

/-- The targets of references to types are the names of these types. -/
theorem map_targetName_of_forall₂ {kind : ReferenceKind} {ns : List Node} {rs : List Reference}
    (h : List.Forall₂ (IsTypeReference t kind) ns rs) :
    rs.map Reference.targetName = (typeNames t ns).map Value.text := by
  induction h with
  | nil => rfl
  | cons hr _ ih =>
    rw [List.map_cons, ih, hr.target]
    rfl

theorem kind_of_annotationReferences {n : Node} {rs : List Reference}
    (h : annotationReferences t n = .ok rs) : ∀ r ∈ rs, r.kind = .use := by
  unfold annotationReferences at h
  split at h
  · cases h
    simp
  · refine forall_mem_of_mapM h fun a _ r hr => ?_
    obtain ⟨-, rfl⟩ := Reference.make_eq_ok_iff.mp hr
    rfl

/-! ### Facts about supertypes -/

/-- The facts about a type that extends some types and implements others. -/
def supertypeFacts (t : LineIndex) (n : Node) (extended implemented : List Node) :
    List (Scalar × Value) :=
  if isConcrete n then
    [(.text "superclass", .textOrNull (typeNames t extended).head?),
      (.text "interfaces", .texts (typeNames t implemented))]
  else if n.kind = "enum_declaration" then [(.text "interfaces", .texts (typeNames t implemented))]
  else [(.text "superInterfaces", .texts (typeNames t extended))]

theorem TypeFacts.nodup_textKeys {n : Node} {facts : List (Scalar × Value)}
    (h : TypeFacts t n facts) : (Metadata.textKeys facts).Nodup := by
  cases h
  all_goals simp [Metadata.textKeys, concreteFacts, Scalar.render]

theorem TypeFacts.mem_of_mem_supertypeFacts {n : Node} {facts : List (Scalar × Value)}
    (h : TypeFacts t n facts) :
    ∀ e ∈ supertypeFacts t n (extendedNodes n) (implementedNodes n), e ∈ facts := by
  unfold supertypeFacts
  cases h with
  | ofClass hc => simp [concreteFacts, hc]
  | ofRecord hc components => simp [concreteFacts, hc]
  | ofEnum hc he constants => simp [hc, he]
  | ofInterface hc he => simp [hc, he]
  | ofAnnotationType hc he => simp [hc, he]

/-! ### Types -/

/-- What a definition says of the supertypes of its type: the references of each kind, one for each
type in a clause and in the same order, and the facts. -/
structure SupertypesRead (t : LineIndex) (n : Node) (d : Definition.Content) : Prop where
  extended : List.Forall₂ (IsTypeReference t .extend) (extendedNodes n)
    (d.references.filter (fun r => r.kind == .extend))
  implemented : List.Forall₂ (IsTypeReference t .implement) (implementedNodes n)
    (d.references.filter (fun r => r.kind == .implement))
  facts : ∀ e ∈ supertypeFacts t n (extendedNodes n) (implementedNodes n),
    d.metadata.get? e.1.render = some e.2

theorem kind_of_forall₂ {kind : ReferenceKind} {ns : List Node} {rs : List Reference}
    (h : List.Forall₂ (IsTypeReference t kind) ns rs) : ∀ r ∈ rs, r.kind = kind := by
  intro r hr
  obtain ⟨n, -, hn⟩ := exists_of_forall₂_of_mem h hr
  exact hn.kind

theorem filter_kind_self {kind : ReferenceKind} {rs : List Reference}
    (h : ∀ r ∈ rs, r.kind = kind) : rs.filter (fun r => r.kind == kind) = rs :=
  List.filter_eq_self.mpr fun r hr => by simp [h r hr]

theorem filter_kind_of_ne {kind kind' : ReferenceKind} {rs : List Reference}
    (h : ∀ r ∈ rs, r.kind = kind) (hne : kind ≠ kind') :
    rs.filter (fun r => r.kind == kind') = [] :=
  List.filter_eq_nil_iff.mpr fun r hr => by simp [h r hr, hne]

/-- The type around a declaration is one more fact with a key of its own. -/
theorem nodup_textKeys_append_declaring {l : Located} {facts declaring : List (Scalar × Value)}
    (hkeys : (Metadata.textKeys facts).Nodup) (hfacts : "declaringType" ∉ Metadata.textKeys facts)
    (h : declaringType t l = .ok declaring) : (Metadata.textKeys (facts ++ declaring)).Nodup := by
  unfold declaringType at h
  split at h
  · cases h
    rwa [List.append_nil]
  · obtain ⟨name, -, h⟩ := bind_eq_ok_iff.mp h
    cases h
    rw [Metadata.textKeys, List.map_append, List.nodup_append_comm]
    exact List.nodup_cons.mpr ⟨hfacts, hkeys⟩

theorem supertypesRead_of_typeDefinitions {kind : DefinitionKind} {l : Located}
    {d : Definition.Content} {ms : List Definition.Content}
    (h : typeDefinitions t kind l = .ok (d :: ms)) :
    d.kind = kind ∧ SupertypesRead t l.node d ∧ ∃ name, members t name l = .ok ms := by
  obtain ⟨name, ms, _, _, annotations, ps, declaring, -, hms, -, -, hannotations, hparticulars,
    hdeclaring, -, he⟩ := typeDefinitions_eq_ok_iff.mp h
  obtain ⟨rfl, rfl⟩ := List.cons_eq_cons.mp he
  obtain ⟨hfacts, extend, implement, hextended, himplemented, hps⟩ :=
    typeFacts_of_particulars hparticulars
  have hextend := forall₂_isTypeReference hextended
  have himplement := forall₂_isTypeReference himplemented
  have huse := kind_of_annotationReferences hannotations
  have hkeys := nodup_textKeys_append_declaring hfacts.nodup_textKeys
    (declaringType_notMem_of_particulars hparticulars) hdeclaring
  refine ⟨rfl, ?_, name, hms⟩
  constructor
  · -- annotations are used, and what is implemented is not extended
    rw [hps, List.filter_append, List.filter_append, filter_kind_of_ne huse (by simp),
      filter_kind_self (kind_of_forall₂ hextend),
      filter_kind_of_ne (kind_of_forall₂ himplement) (by simp), List.nil_append, List.append_nil]
    exact hextend
  · rw [hps, List.filter_append, List.filter_append, filter_kind_of_ne huse (by simp),
      filter_kind_of_ne (kind_of_forall₂ hextend) (by simp),
      filter_kind_self (kind_of_forall₂ himplement), List.nil_append, List.nil_append]
    exact himplement
  · intro e he
    apply Metadata.get?_ofEntries_of_mem hkeys
    exact List.mem_append_left _ (hfacts.mem_of_mem_supertypeFacts e he)

/-! ### Facts and references -/

/-- A reference points at the last part of the full name that it holds: what stands after the last
dot, without brackets and blanks. -/
def PointsAtLastPart (r : Reference) : Prop :=
  ∃ target name : List Char, r.targetName = .text (String.ofList target) ∧
    r.metadata.get? "qualifiedName" = some (.text (String.ofList name)) ∧
    IsLastPart target name ∧
    ∀ c ∈ target, c ≠ '<' ∧ c ≠ '>' ∧ c ≠ '.' ∧ Text.isBlank c = false

theorem IsTypeReference.pointsAtLastPart {kind : ReferenceKind} {n : Node} {r : Reference}
    (h : IsTypeReference t kind n r) : PointsAtLastPart r := by
  have hlast : IsLastPart (simpleName (namingText t n)) (eraseArguments (namingText t n)) :=
    isLastPart_lastSegment _
  refine ⟨_, _, h.target, h.qualified, hlast, fun c hc => ?_⟩
  obtain ⟨hopen, hclose, hblank⟩ := of_mem_eraseFrom (mem_of_mem_lastSegment hc)
  refine ⟨hopen, hclose, ?_, hblank⟩
  rintro rfl
  exact hlast.1 hc

/-- What a definition of a type says of the supertypes in its facts is what it says in its
references. -/
structure SupertypesAgree (d : Definition.Content) : Prop where
  /-- A class, record or enumeration lists the types it implements. -/
  interfaces : d.kind = .type ∨ d.kind = .enum →
    d.metadata.get? "interfaces" = some (.list (d.targets .implement))
  /-- A class or record names at most one type it extends, and null if there is none. -/
  superclass : d.kind = .type → ∃ name : Option String,
    d.targets .extend = (name.map Value.text).toList ∧
    d.metadata.get? "superclass" = some (.textOrNull name)
  /-- An interface or annotation type lists the types it extends. -/
  superInterfaces : d.kind = .interface →
    d.metadata.get? "superInterfaces" = some (.list (d.targets .extend))
  /-- The target of a reference to a supertype is part of its full name. -/
  targets : ∀ r ∈ d.references, r.kind = .extend ∨ r.kind = .implement → PointsAtLastPart r

theorem map_text_extendedNodes (t : LineIndex) {n : Node} (h : isConcrete n = true) :
    (typeNames t (extendedNodes n)).map Value.text
      = ((typeNames t (extendedNodes n)).head?.map Value.text).toList := by
  have hlength : (typeNames t (extendedNodes n)).length ≤ 1 := by
    rw [typeNames, List.length_map]
    exact length_extendedNodes_le h
  match hnames : typeNames t (extendedNodes n) with
  | [] => rfl
  | [name] => rfl
  | _ :: _ :: _ => simp [hnames] at hlength

theorem SupertypesRead.agree {n : Node} {d : Definition.Content} (h : SupertypesRead t n d)
    (hkind : typeKind? n.kind = some d.kind) : SupertypesAgree d := by
  have hextend : d.targets .extend = (typeNames t (extendedNodes n)).map Value.text :=
    map_targetName_of_forall₂ h.extended
  have himplement : d.targets .implement = (typeNames t (implementedNodes n)).map Value.text :=
    map_targetName_of_forall₂ h.implemented
  have hfacts := h.facts
  unfold supertypeFacts at hfacts
  -- what is read off the clauses is told under keys that hang on the kind of declaration
  have htypes : isConcrete n = true ∧ d.kind = .type ∨
      isConcrete n = false ∧ n.kind = "enum_declaration" ∧ d.kind = .enum ∨
      isConcrete n = false ∧ n.kind ≠ "enum_declaration" ∧ d.kind = .interface := by
    unfold typeKind? at hkind
    unfold isConcrete
    split at hkind
    all_goals simp_all
  constructor
  · intro hd
    rw [himplement]
    rcases htypes with ⟨hc, -⟩ | ⟨hc, he, -⟩ | ⟨-, -, hi⟩
    · rw [if_pos hc] at hfacts
      exact hfacts (.text "interfaces", .texts (typeNames t (implementedNodes n))) (by simp)
    · rw [if_neg (by simp [hc]), if_pos he] at hfacts
      exact hfacts (.text "interfaces", .texts (typeNames t (implementedNodes n))) (by simp)
    · simp [hi] at hd
  · intro hd
    rcases htypes with ⟨hc, -⟩ | ⟨-, -, he⟩ | ⟨-, -, hi⟩
    · rw [if_pos hc] at hfacts
      exact ⟨(typeNames t (extendedNodes n)).head?, by rw [hextend, map_text_extendedNodes t hc],
        hfacts (.text "superclass", .textOrNull (typeNames t (extendedNodes n)).head?) (by simp)⟩
    · simp [he] at hd
    · simp [hi] at hd
  · intro hd
    rw [hextend]
    rcases htypes with ⟨-, ht⟩ | ⟨-, -, he⟩ | ⟨hc, he, -⟩
    · simp [ht] at hd
    · simp [he] at hd
    · rw [if_neg (by simp [hc]), if_neg he] at hfacts
      exact hfacts (.text "superInterfaces", .texts (typeNames t (extendedNodes n))) (by simp)
  · rintro r hr (hk | hk)
    · obtain ⟨s, -, hs⟩ := exists_of_forall₂_of_mem h.extended
        (List.mem_filter.mpr ⟨hr, by simp [hk]⟩)
      exact hs.pointsAtLastPart
    · obtain ⟨s, -, hs⟩ := exists_of_forall₂_of_mem h.implemented
        (List.mem_filter.mpr ⟨hr, by simp [hk]⟩)
      exact hs.pointsAtLastPart

/-- Functions and variables have no supertypes, and refer to annotations alone. -/
theorem supertypesAgree_of_memberDefinitions {owner : String} {declaration : Node} {l : Located}
    {ds : List Definition.Content} (h : memberDefinitions t owner declaration l = .ok ds) :
    ∀ d ∈ ds, SupertypesAgree d := by
  intro d hd
  obtain ⟨f, name, kind, facts, hf, hkind, hmember⟩ := exists_frame_of_memberDefinitions h d hd
  obtain ⟨-, rfl⟩ := member_eq_ok_iff.mp hmember
  have huse := kind_of_annotationReferences (frame_eq_ok_iff.mp hf).2.2
  constructor
  · rintro (rfl | rfl) <;> simp at hkind
  · rintro rfl
    simp at hkind
  · rintro rfl
    simp at hkind
  · intro r hr hk
    rw [huse r hr] at hk
    simp at hk

theorem supertypesAgree_of_definitionsAt {l : Located} {ds : List Definition.Content}
    (h : definitionsAt t l = .ok ds) : ∀ d ∈ ds, SupertypesAgree d := by
  unfold definitionsAt at h
  split at h
  · cases h
    simp
  · next kind hk =>
    obtain ⟨d, ms, rfl, -⟩ := isTypeOutline_of_typeDefinitions hk h
    obtain ⟨rfl, hread, name, hms⟩ := supertypesRead_of_typeDefinitions h
    exact List.forall_mem_cons.mpr ⟨hread.agree hk,
      forall_mem_of_members hms fun _ _ _ => supertypesAgree_of_memberDefinitions⟩

/-- What a unit says of the supertypes of its types is the same in the facts about them and in
their references. -/
theorem supertypesAgree_of_convert {ids : IdSource} {p : Parsed Node} {u : CodeUnit}
    (h : convert ids (some p) = .ok u) : ∀ d ∈ u.definitions, SupertypesAgree d.toContent := by
  obtain ⟨root, o, -, ho, hu⟩ := convert_eq_ok_iff.mp h
  obtain ⟨-, rfl⟩ := Outline.toUnit_eq_ok_iff.mp hu
  simp only [outline, bind_eq_ok_iff, pure_eq, Except.ok.injEq] at ho
  obtain ⟨ds, hds, -, -, rfl⟩ := ho
  have hall : ∀ d ∈ ds, SupertypesAgree d :=
    forall_mem_of_flatten_mapM hds fun _ _ _ => supertypesAgree_of_definitionsAt
  intro d hd
  exact hall d.toContent (Outline.mem_number hd).1

/-! ### A class that extends a type with arguments -/

/-- The tree of a class with a superclass and two interfaces, some with a package and arguments. -/
def genericTree : Node :=
  .plain "program" 0 44 none [
    .plain "class_declaration" 0 44 none [
      .plain "identifier" 6 7 (some "name") [],
      .plain "superclass" 8 22 (some "superclass") [
        .plain "generic_type" 16 22 none []],
      .plain "super_interfaces" 23 42 (some "interfaces") [
        .plain "type_list" 34 42 none [
          .plain "type_identifier" 34 35 none [],
          .plain "generic_type" 36 42 none []]],
      .plain "class_body" 42 44 (some "body") []]]

/-- What a parser makes of the text of `genericTree`. -/
def generic : Parsed Node where
  path := none
  source := "class A extends x.B<C> implements D,e.F<G>{}".toUTF8.toList
  tree := some genericTree
  problems := []

theorem supertypesAgree_of_convert_generic :
    ∃ u, convert toString (some generic) = .ok u ∧
      ∀ d ∈ u.definitions, SupertypesAgree d.toContent := by
  have hok : (convert toString (some generic)).isOk = true := by decide +kernel
  obtain ⟨u, hu⟩ := exists_eq_ok_of_isOk hok
  exact ⟨u, hu, supertypesAgree_of_convert hu⟩

end Java

end CodeOutline
