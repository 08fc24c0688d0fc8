/-
CodeOutline/Proofs/Entity/Parts.lean

The parts of an entity that may be of any shape.

Most of an entity is fixed by its type: words, positions, other entities.  What is left are the
values that stand for texts, and metadata.  These parts are listed for every entity, with those of
the entities inside it, in the order in which they are written; of the units that a unit depends on
only the id and the name are.  What is asked of the parts of an entity is asked of the list
(`Part.Regular`), and taken apart by the entity inside it that a part belongs to
(`Definition.forall_parts_iff`, `CodeUnit.forall_parts_iff`).
-/
import CodeOutline.Entity
import CodeOutline.Proofs.Metadata.Writing

namespace CodeOutline

/-- A value that stands for a text, or metadata. -/
inductive Part where
  | text (v : Value)
  | metadata (m : Metadata)

namespace Part

/-- A part is regular if it is a text, or metadata with a property. -/
def Regular (P : Metadata → Prop) : Part → Prop
  | .text v => ∃ s, v = .text s
  | .metadata m => P m

/-- The sets in a part, at any depth; a text has none. -/
def sets : Part → List (List Scalar)
  | .text _ => []
  | .metadata m => m.sets

end Part

/-! ### Scopes -/

/-- What holds of a scope whenever it holds of its children holds of all scopes. -/
@[elab_as_elim]
theorem Scope.childInduction {P : Scope → Prop}
    (parent : ∀ s : Scope, (∀ c ∈ s.children, P c) → P s) (s : Scope) : P s :=
  parent s fun c hc =>
    have hlt : sizeOf c < sizeOf s := by
      have := List.sizeOf_lt_of_mem hc
      obtain ⟨level, start, stop, children, metadata⟩ := s
      simp only [Scope.mk.sizeOf_spec] at this ⊢
      omega
    Scope.childInduction parent c
termination_by sizeOf s

mutual

/-- The parts of a scope and of the scopes in it. -/
def Scope.parts : Scope → List Part
  | ⟨_, _, _, children, metadata⟩ => Scope.allParts children ++ [.metadata metadata]

/-- The parts of some scopes. -/
def Scope.allParts : List Scope → List Part
  | [] => []
  | s :: ss => s.parts ++ Scope.allParts ss

end

theorem Scope.allParts_eq (ss : List Scope) : Scope.allParts ss = ss.flatMap Scope.parts := by
  induction ss with
  | nil => rfl
  | cons s ss ih => rw [Scope.allParts, ih, List.flatMap_cons]

theorem Scope.forall_parts_iff {Q : Part → Prop} {s : Scope} :
    (∀ p ∈ s.parts, Q p) ↔ (∀ c ∈ s.children, ∀ p ∈ c.parts, Q p) ∧ Q (.metadata s.metadata) := by
  obtain ⟨level, start, stop, children, metadata⟩ := s
  simp only [Scope.parts, Scope.allParts_eq, List.forall_mem_append, List.forall_mem_flatMap,
    List.forall_mem_singleton]

/-! ### References and documentation -/

/-- The parts of a reference. -/
def Reference.parts (r : Reference) : List Part := [.text r.targetName, .metadata r.metadata]

theorem Reference.forall_parts_iff {Q : Part → Prop} {r : Reference} :
    (∀ p ∈ r.parts, Q p) ↔ Q (.text r.targetName) ∧ Q (.metadata r.metadata) := by
  simp [Reference.parts]

/-- The parts of a tag. -/
def DocumentationTag.parts (t : DocumentationTag) : List Part :=
  [.text t.name, .text t.value, .metadata t.attributes]

theorem DocumentationTag.forall_parts_iff {Q : Part → Prop} {t : DocumentationTag} :
    (∀ p ∈ t.parts, Q p) ↔
      Q (.text t.name) ∧ Q (.text t.value) ∧ Q (.metadata t.attributes) := by
  simp [DocumentationTag.parts]

/-- The parts of a piece of documentation and of its tags. -/
def Documentation.parts (d : Documentation) : List Part :=
  .text d.description :: d.tags.flatMap DocumentationTag.parts ++ [.metadata d.metadata]

theorem Documentation.forall_parts_iff {Q : Part → Prop} {d : Documentation} :
    (∀ p ∈ d.parts, Q p) ↔
      Q (.text d.description) ∧ (∀ t ∈ d.tags, ∀ p ∈ t.parts, Q p) ∧ Q (.metadata d.metadata) := by
  simp only [Documentation.parts, List.cons_append, List.forall_mem_cons, List.forall_mem_append,
    List.forall_mem_flatMap, List.not_mem_nil, IsEmpty.forall_iff, implies_true, and_true]

/-- The parts of a piece of documentation, if there is one. -/
def Documentation.partsOf (d : Option Documentation) : List Part :=
  d.toList.flatMap Documentation.parts

theorem Documentation.forall_partsOf_iff {Q : Part → Prop} {d : Option Documentation} :
    (∀ p ∈ Documentation.partsOf d, Q p) ↔ ∀ e ∈ d, ∀ p ∈ e.parts, Q p := by
  simp only [Documentation.partsOf, List.forall_mem_flatMap, Option.mem_toList, Option.mem_def]

/-! ### Definitions and units -/

/-- The parts of the content of a definition. -/
def Definition.Content.parts (c : Definition.Content) : List Part :=
  .text c.name :: c.scope.parts ++ c.references.flatMap Reference.parts ++
    Documentation.partsOf c.documentation ++ [.metadata c.metadata]

theorem Definition.Content.forall_parts_iff {Q : Part → Prop} {c : Definition.Content} :
    (∀ p ∈ c.parts, Q p) ↔
      Q (.text c.name) ∧ (∀ p ∈ c.scope.parts, Q p) ∧
      (∀ r ∈ c.references, ∀ p ∈ r.parts, Q p) ∧
      (∀ d ∈ c.documentation, ∀ p ∈ d.parts, Q p) ∧ Q (.metadata c.metadata) := by
  simp only [Definition.Content.parts, List.cons_append, List.forall_mem_cons,
    List.forall_mem_append, List.forall_mem_flatMap, Documentation.forall_partsOf_iff,
    List.not_mem_nil, IsEmpty.forall_iff, implies_true, and_true, and_assoc]

/-- The parts of a definition. -/
def Definition.parts (d : Definition) : List Part := .text d.id :: d.toContent.parts

theorem Definition.forall_parts_iff {Q : Part → Prop} {d : Definition} :
    (∀ p ∈ d.parts, Q p) ↔ Q (.text d.id) ∧ ∀ p ∈ d.toContent.parts, Q p :=
  List.forall_mem_cons

/-- The parts of a unit that the units which depend on it are told. -/
def CodeUnit.nameParts (u : CodeUnit) : List Part := [.text u.id, .text u.name]

theorem CodeUnit.forall_nameParts_iff {Q : Part → Prop} {u : CodeUnit} :
    (∀ p ∈ u.nameParts, Q p) ↔ Q (.text u.id) ∧ Q (.text u.name) := by
  simp [CodeUnit.nameParts]

/-- The parts of a unit, of what it owns, and of the names of the units it depends on. -/
def CodeUnit.parts (u : CodeUnit) : List Part :=
  u.nameParts ++ u.definitions.flatMap Definition.parts ++
    u.dependencies.flatMap CodeUnit.nameParts ++ Documentation.partsOf u.documentation ++
    [.metadata u.metadata]

theorem CodeUnit.forall_parts_iff {Q : Part → Prop} {u : CodeUnit} :
    (∀ p ∈ u.parts, Q p) ↔
      (∀ p ∈ u.nameParts, Q p) ∧ (∀ d ∈ u.definitions, ∀ p ∈ d.parts, Q p) ∧
      (∀ v ∈ u.dependencies, ∀ p ∈ v.nameParts, Q p) ∧
      (∀ d ∈ u.documentation, ∀ p ∈ d.parts, Q p) ∧ Q (.metadata u.metadata) := by
  simp only [CodeUnit.parts, List.forall_mem_append, List.forall_mem_flatMap,
    Documentation.forall_partsOf_iff, List.forall_mem_singleton, and_assoc]

/-- The parts of an entity; a position has none. -/
def Entity.parts : Entity → List Part
  | .position _ => []
  | .scope s => s.parts
  | .reference r => r.parts
  | .tag t => t.parts
  | .documentation d => d.parts
  | .definition d => d.parts
  | .unit u => u.parts

end CodeOutline
