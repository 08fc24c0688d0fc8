/-
CodeOutline/Proofs/Java/Part.lean

When the parts of a declaration can be read, and what they are then.

A name is read off a node that is there (`nameOf_eq_ok_iff`), a scope off a node that is there and
has text (`scopeOf_eq_ok_iff`); it goes from the first character of the node to the last one.  A
comment before a declaration can always be read (`exists_documentationOf`).  Members of every kind
are made from a frame (`exists_frame_of_memberDefinitions`), and the definition of a type from all
its parts (`typeDefinitions_eq_ok_iff`).  What is particular to a kind of type are some facts and
the references to its supertypes (`typeFacts_of_particulars`).
-/
import CodeOutline.Java.Outline
import CodeOutline.Proofs.Java.Comment

namespace CodeOutline.Java

open Outcome

variable {t : LineIndex} {n : Node} {l : Located}

/-! ### Names -/

/-- The name of a declaration, if there is a node for it. -/
def nameText (t : LineIndex) (n : Node) : Option String :=
  (textOf? t (n.fieldChild? "name")).map String.ofList

theorem nameOf_eq_ok_iff {name : String} :
    nameOf t n = .ok name ↔ nameText t n = some name := by
  rw [nameOf, mapError_eq_ok_iff, needed_eq_ok_iff, Except.ok.injEq]
  rfl

/-- The nodes that have the names of parameters. -/
def parameterNodes (parameters : Option Node) : List Node :=
  match parameters with
  | none => []
  | some n => n.namedChildren.filterMap fun p =>
      if p.kind = "formal_parameter" then some p
      else if p.kind = "spread_parameter" then p.childOfKind? "variable_declarator"
      else none

theorem parameterNames_eq (t : LineIndex) (parameters : Option Node) :
    parameterNames t parameters = (parameterNodes parameters).mapM (nameOf t) := by
  cases parameters with
  | none => rfl
  | some n => rfl

/-! ### Ranges -/

theorem spanOf_eq_ok_iff {r : Position × Position} :
    spanOf t n = .ok r ↔
      n.missing = false ∧ n.start < n.stop ∧ r = (t.position n.start, t.lastPosition n.stop) := by
  rw [spanOf, mapError_eq_ok_iff, needed_eq_ok_iff, Except.ok.injEq]
  by_cases hm : n.missing = true
  · simp [hm]
  · -- a node that is there has a range unless it is empty
    by_cases hs : n.stop ≤ n.start
    · simp [hm, LineIndex.span?, hs, Nat.not_lt.mpr hs]
    · simp [hm, LineIndex.span?, hs, Nat.lt_of_not_le hs, eq_comm]

theorem scopeOf_eq_ok_iff {level : ScopeLevel} {children : List Scope} {s : Scope} :
    scopeOf t level n children = .ok s ↔
      n.missing = false ∧ n.start < n.stop ∧
      (t.lastPosition n.stop).isBefore (t.position n.start) = false ∧
      (∀ c ∈ children, c.start.isBefore (t.position n.start) = false ∧
        (t.lastPosition n.stop).isBefore c.stop = false) ∧
      s = ⟨level, t.position n.start, t.lastPosition n.stop, children, []⟩ := by
  simp only [scopeOf, bind_eq_ok_iff, spanOf_eq_ok_iff, built_eq_ok_iff, Prod.exists,
    Prod.mk.injEq, Scope.make_eq_ok_iff]
  constructor
  · rintro ⟨_, _, ⟨hm, hlt, rfl, rfl⟩, hends, hin, rfl⟩
    exact ⟨hm, hlt, hends, hin, rfl⟩
  · rintro ⟨hm, hlt, hends, hin, rfl⟩
    exact ⟨_, _, ⟨hm, hlt, rfl, rfl⟩, hends, hin, rfl⟩

/-! ### Documentation -/

theorem exists_commentDocumentation (t : LineIndex) (n : Node) :
    ∃ d, commentDocumentation t n = .ok d := by
  unfold commentDocumentation
  simp only
  split
  · -- a documentation comment
    obtain ⟨d, hd⟩ := Javadoc.exists_parse (String.ofList ((textOf? t (some n)).getD []))
      (some (t.position n.start))
    exact ⟨some d, by rw [hd]; rfl⟩
  · exact ⟨none, rfl⟩

/-- The documentation in a comment stands where the comment does. -/
theorem position_of_commentDocumentation {d : Documentation}
    (h : commentDocumentation t n = .ok (some d)) : d.position = some (t.position n.start) := by
  unfold commentDocumentation at h
  simp only at h
  split at h
  · rw [map_eq_ok_iff] at h
    obtain ⟨d', hd', hdd⟩ := h
    rw [← Option.some.inj hdd]
    exact Javadoc.position_of_parse hd'
  · cases h

theorem exists_documentationOf (t : LineIndex) (l : Located) :
    ∃ d, documentationOf t l = .ok d := by
  unfold documentationOf
  split
  · exact ⟨none, rfl⟩
  · exact exists_commentDocumentation t _

/-! ### Members -/

theorem frame_eq_ok_iff {f : Frame} :
    frame t l = .ok f ↔
      scopeOf t (memberLevel (modifiersOf l.node)) l.node [] = .ok f.scope ∧
      documentationOf t l = .ok f.documentation ∧
      annotationReferences t l.node = .ok f.references := by
  simp only [frame, bind_eq_ok_iff, built_eq_ok_iff, pure_eq, Except.ok.injEq]
  constructor
  · rintro ⟨scope, hs, documentation, hd, references, hr, rfl⟩
    exact ⟨hs, hd, hr⟩
  · rintro ⟨hs, hd, hr⟩
    exact ⟨_, hs, _, hd, _, hr, rfl⟩

theorem member_eq_ok_iff {f : Frame} {name owner : String} {kind : DefinitionKind}
    {facts : List (Scalar × Value)} {d : Definition.Content} :
    f.member name kind owner facts = .ok d ↔
      Text.allBlank name = false ∧
      d = ⟨name, kind, f.scope, f.scope.start, f.references, f.documentation,
        Metadata.ofEntries ((.text "declaringType", (owner : Value)) :: facts)⟩ := by
  rw [Frame.member, built_eq_ok_iff, Definition.Content.make_eq_ok_iff]

/-- Every definition that a child of a body gives is made from its frame, and is that of a function
or variable. -/
theorem exists_frame_of_memberDefinitions {owner : String} {declaration : Node}
    {ds : List Definition.Content} (h : memberDefinitions t owner declaration l = .ok ds) :
    ∀ d ∈ ds, ∃ f name kind facts, frame t l = .ok f ∧
      (kind = .function ∨ kind = .variable) ∧ f.member name kind owner facts = .ok d := by
  unfold memberDefinitions at h
  split at h
  · cases h
    simp
  · split at h
    · -- a method
      obtain ⟨d, hd, rfl⟩ := map_eq_ok_iff.mp h
      simp only [method, bind_eq_ok_iff] at hd
      obtain ⟨name, -, _, -, f, hf, _, -, hd⟩ := hd
      exact List.forall_mem_singleton.mpr ⟨f, name, _, _, hf, .inl rfl, hd⟩
    · split at h
      · -- a constructor
        obtain ⟨d, hd, rfl⟩ := map_eq_ok_iff.mp h
        simp only [constructor, bind_eq_ok_iff] at hd
        obtain ⟨name, -, f, hf, _, -, hd⟩ := hd
        exact List.forall_mem_singleton.mpr ⟨f, name, _, _, hf, .inl rfl, hd⟩
      · split at h
        · -- the variables of a field
          refine forall_mem_of_mapM h fun declarator _ d hd => ?_
          simp only [variableOf, bind_eq_ok_iff] at hd
          obtain ⟨name, -, f, hf, hd⟩ := hd
          exact ⟨f, name, _, _, hf, .inr rfl, hd⟩
        · cases h
          simp

/-! ### Clauses with supertypes -/

/-- The clause with the types that a type extends, which enumerations do not have. -/
def extendsClause? (n : Node) : Option Node :=
  if isConcrete n then n.fieldChild? "superclass"
  else if n.kind = "enum_declaration" then none
  else n.childOfKind? "extends_interfaces"

/-- The clause with the types that a type implements, which interfaces do not have. -/
def implementsClause? (n : Node) : Option Node :=
  if isConcrete n || n.kind = "enum_declaration" then n.fieldChild? "interfaces" else none

/-- The nodes read as the types that a type extends: of several superclasses the last one. -/
def extendedNodes (n : Node) : List Node :=
  let supertypes := typeNodes (extendsClause? n)
  if isConcrete n then supertypes.drop (supertypes.length - 1) else supertypes

/-- The nodes read as the types that a type implements. -/
def implementedNodes (n : Node) : List Node := typeNodes (implementsClause? n)

theorem extendedNodes_of_isConcrete (hc : isConcrete n = true) :
    extendedNodes n = (typeNodes (n.fieldChild? "superclass")).drop
      ((typeNodes (n.fieldChild? "superclass")).length - 1) := by
  simp only [extendedNodes, extendsClause?, if_pos hc]

/-- A class or record extends at most one type. -/
theorem length_extendedNodes_le (h : isConcrete n = true) :
    (extendedNodes n).length ≤ 1 := by
  rw [extendedNodes_of_isConcrete h, List.length_drop]
  omega

theorem extendedNodes_of_isEnum (hc : ¬isConcrete n = true)
    (he : n.kind = "enum_declaration") : extendedNodes n = [] := by
  simp only [extendedNodes, extendsClause?, if_neg hc, if_pos he]
  rfl

theorem extendedNodes_of_isInterface (hc : ¬isConcrete n = true)
    (he : ¬n.kind = "enum_declaration") :
    extendedNodes n = typeNodes (n.childOfKind? "extends_interfaces") := by
  simp only [extendedNodes, extendsClause?, if_neg hc, if_neg he]

theorem implementedNodes_of_isConcrete_or_isEnum
    (h : isConcrete n = true ∨ n.kind = "enum_declaration") :
    implementedNodes n = typeNodes (n.fieldChild? "interfaces") := by
  rw [implementedNodes, implementsClause?, if_pos (by simpa using h)]

theorem implementedNodes_of_isInterface (hc : ¬isConcrete n = true)
    (he : ¬n.kind = "enum_declaration") : implementedNodes n = [] := by
  rw [implementedNodes, implementsClause?, if_neg (by simp [hc, he])]
  rfl

/-! ### What is particular to a kind of type -/

/-- The facts that classes and records have in common. -/
def concreteFacts (t : LineIndex) (n : Node) : List (Scalar × Value) :=
  [(.text "isAbstract", .bool ((modifiersOf n).contains "abstract")),
    (.text "isFinal", .bool ((modifiersOf n).contains "final")),
    (.text "superclass", .textOrNull (typeNames t (extendedNodes n)).head?),
    (.text "interfaces", .texts (typeNames t (implementedNodes n)))]

/-- The facts that are particular to a kind of type. -/
inductive TypeFacts (t : LineIndex) (n : Node) : List (Scalar × Value) → Prop
  | ofClass (hc : isConcrete n = true) : TypeFacts t n (concreteFacts t n)
  | ofRecord (hc : isConcrete n = true) (components : List String) :
    TypeFacts t n (concreteFacts t n ++
      [(.text "isRecord", .bool true), (.text "components", .texts components)])
  | ofEnum (hc : ¬isConcrete n = true) (he : n.kind = "enum_declaration")
    (constants : List String) :
    TypeFacts t n [(.text "constants", .texts constants),
      (.text "interfaces", .texts (typeNames t (implementedNodes n)))]
  | ofInterface (hc : ¬isConcrete n = true) (he : ¬n.kind = "enum_declaration") :
    TypeFacts t n [(.text "superInterfaces", .texts (typeNames t (extendedNodes n)))]
  | ofAnnotationType (hc : ¬isConcrete n = true) (he : ¬n.kind = "enum_declaration") :
    TypeFacts t n [(.text "superInterfaces", .texts (typeNames t (extendedNodes n))),
      (.text "isAnnotation", .bool true)]

/-- Whatever the kind of a type, its references are to the types it extends and, after these, to
those it implements. -/
theorem typeFacts_of_particulars {ps : Particulars} (h : particulars t n = .ok ps) :
    TypeFacts t n ps.1 ∧ ∃ extend implement,
      (extendedNodes n).mapM (typeReference t .extend) = .ok extend ∧
      (implementedNodes n).mapM (typeReference t .implement) = .ok implement ∧
      ps.2 = extend ++ implement := by
  unfold particulars at h
  split at h
  · next hc =>
    -- a class, or a record with more facts
    simp only [concreteParticulars, bind_eq_ok_iff, pure_eq, built_eq_ok_iff,
      ← extendedNodes_of_isConcrete hc,
      ← implementedNodes_of_isConcrete_or_isEnum (.inl hc)] at h
    obtain ⟨extend, hextend, implement, himplement, h⟩ := h
    split at h
    · simp only [bind_eq_ok_iff, Except.ok.injEq] at h
      obtain ⟨components, -, _, rfl, rfl⟩ := h
      exact ⟨.ofRecord hc components, extend, implement, hextend, himplement, rfl⟩
    · simp only [ok_bind, Except.ok.injEq] at h
      subst h
      exact ⟨.ofClass hc, extend, implement, hextend, himplement, rfl⟩
  · next hc =>
    split at h
    · next he =>
      -- an enumeration
      simp only [enumParticulars, bind_eq_ok_iff, pure_eq, built_eq_ok_iff, Except.ok.injEq,
        ← implementedNodes_of_isConcrete_or_isEnum (.inr he)] at h
      obtain ⟨constants, -, implement, himplement, rfl⟩ := h
      refine ⟨.ofEnum hc he constants, [], implement, ?_, himplement, rfl⟩
      rw [extendedNodes_of_isEnum hc he]
      rfl
    · next he =>
      -- an interface or annotation type
      simp only [interfaceParticulars, bind_eq_ok_iff, pure_eq, built_eq_ok_iff,
        Except.ok.injEq, ← extendedNodes_of_isInterface hc he] at h
      obtain ⟨extend, hextend, rfl⟩ := h
      have himplement : (implementedNodes n).mapM (typeReference t .implement) = .ok [] := by
        rw [implementedNodes_of_isInterface hc he]
        rfl
      refine ⟨?_, extend, [], hextend, himplement, (List.append_nil extend).symm⟩
      dsimp only
      split
      · exact .ofAnnotationType hc he
      · exact .ofInterface hc he

/-! ### Types -/

theorem typeDefinitions_eq_ok_iff {kind : DefinitionKind} {ds : List Definition.Content} :
    typeDefinitions t kind l = .ok ds ↔
      ∃ name ms scope documentation annotations ps declaring,
        nameOf t l.node = .ok name ∧ members t name l = .ok ms ∧
        scopeOf t (typeLevel (modifiersOf l.node)) l.node (ms.map (·.scope)) = .ok scope ∧
        documentationOf t l = .ok documentation ∧
        annotationReferences t l.node = .ok annotations ∧
        particulars t l.node = .ok ps ∧ declaringType t l = .ok declaring ∧
        Text.allBlank name = false ∧
        ds = ⟨name, kind, scope, scope.start, annotations ++ ps.2, documentation,
          Metadata.ofEntries (ps.1 ++ declaring)⟩ :: ms := by
  simp only [typeDefinitions, bind_eq_ok_iff, built_eq_ok_iff, pure_eq, Except.ok.injEq,
    Definition.Content.make_eq_ok_iff]
  constructor
  · rintro ⟨name, hname, ms, hms, scope, hscope, documentation, hdocumentation, annotations,
      hannotations, ps, hps, declaring, hdeclaring, _, ⟨hblank, rfl⟩, rfl⟩
    exact ⟨name, ms, scope, documentation, annotations, ps, declaring, hname, hms, hscope,
      hdocumentation, hannotations, hps, hdeclaring, hblank, rfl⟩
  · rintro ⟨name, ms, scope, documentation, annotations, ps, declaring, hname, hms, hscope,
      hdocumentation, hannotations, hps, hdeclaring, hblank, rfl⟩
    exact ⟨name, hname, ms, hms, scope, hscope, documentation, hdocumentation, annotations,
      hannotations, ps, hps, declaring, hdeclaring, _, ⟨hblank, rfl⟩, rfl⟩

/-- What holds of the definitions that each child of its body gives holds of all members of a
type. -/
theorem forall_mem_of_members {owner : String} {ds : List Definition.Content}
    {P : Definition.Content → Prop} (h : members t owner l = .ok ds)
    (hP : ∀ c ∈ bodyChildren l, ∀ ds, memberDefinitions t owner l.node c = .ok ds → ∀ d ∈ ds, P d) :
    ∀ d ∈ ds, P d := by
  unfold members at h
  split at h
  · exact forall_mem_of_flatten_mapM h hP
  · cases h
    simp

end CodeOutline.Java
