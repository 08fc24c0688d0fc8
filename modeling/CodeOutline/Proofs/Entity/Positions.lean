/-
CodeOutline/Proofs/Entity/Positions.lean

The positions that occur in a unit.

They are listed for every entity: those of a scope with those of the scopes in it at any depth,
those of a definition with those of its references and its documentation, and those of a unit with
those of the units it depends on.  What all positions of an entity have in common is stated over
the list, and taken apart by the part it stands in (`Definition.Content.forall_positions_iff`).
-/
import CodeOutline.Proofs.Entity.Building

namespace CodeOutline

/-! ### Scopes -/

mutual

/-- The positions in a scope: its ends, and those of the scopes in it. -/
def Scope.positions : Scope → List Position
  | ⟨_, start, stop, children, _⟩ => start :: stop :: Scope.allPositions children

/-- The positions in some scopes. -/
def Scope.allPositions : List Scope → List Position
  | [] => []
  | s :: ss => s.positions ++ Scope.allPositions ss

end

theorem Scope.allPositions_eq (ss : List Scope) :
    Scope.allPositions ss = ss.flatMap Scope.positions := by
  induction ss with
  | nil => rfl
  | cons s ss ih => rw [Scope.allPositions, ih, List.flatMap_cons]

theorem Scope.forall_positions_iff {P : Position → Prop} {s : Scope} :
    (∀ p ∈ s.positions, P p) ↔
      P s.start ∧ P s.stop ∧ ∀ c ∈ s.children, ∀ p ∈ c.positions, P p := by
  obtain ⟨level, start, stop, children, metadata⟩ := s
  simp only [Scope.positions, Scope.allPositions_eq, List.forall_mem_cons, List.forall_mem_flatMap]

/-! ### Definitions -/

/-- The position of a reference. -/
def Reference.positions (r : Reference) : List Position := r.position.toList

/-- The position of a piece of documentation, if there are both. -/
def Documentation.positionsOf (d : Option Documentation) : List Position :=
  (d.bind Documentation.position).toList

/-- The positions in a definition. -/
def Definition.Content.positions (c : Definition.Content) : List Position :=
  c.position :: c.scope.positions ++ c.references.flatMap Reference.positions ++
    Documentation.positionsOf c.documentation

theorem Definition.Content.forall_positions_iff {P : Position → Prop} {c : Definition.Content} :
    (∀ p ∈ c.positions, P p) ↔
      P c.position ∧ (∀ p ∈ c.scope.positions, P p) ∧
      (∀ r ∈ c.references, ∀ p ∈ r.positions, P p) ∧
      ∀ p ∈ Documentation.positionsOf c.documentation, P p := by
  simp only [Definition.Content.positions, List.cons_append, List.forall_mem_cons,
    List.forall_mem_append, List.forall_mem_flatMap, and_assoc]

/-- What holds of all positions in some definitions holds of those in their scopes. -/
theorem Definition.Content.forall_positions_of_scopes {P : Position → Prop}
    {ds : List Definition.Content} (h : ∀ d ∈ ds, ∀ p ∈ d.positions, P p) :
    ∀ s ∈ ds.map (·.scope), ∀ p ∈ s.positions, P p := by
  intro s hs
  obtain ⟨d, hd, rfl⟩ := List.mem_map.mp hs
  exact (Definition.Content.forall_positions_iff.mp (h d hd)).2.1

/-! ### Units -/

mutual

/-- The positions in a unit and in the units it depends on. -/
def CodeUnit.positions : CodeUnit → List Position
  | ⟨_, _, _, definitions, dependencies, documentation, _⟩ =>
    definitions.flatMap (fun d => d.toContent.positions) ++
      CodeUnit.allPositions dependencies ++ Documentation.positionsOf documentation

/-- The positions in some units. -/
def CodeUnit.allPositions : List CodeUnit → List Position
  | [] => []
  | u :: us => u.positions ++ CodeUnit.allPositions us

end

/-- The positions in the unit of an outline are those in its definitions and its documentation. -/
theorem Outline.forall_positions_of_toUnit {P : Position → Prop} {ids : IdSource} {o : Outline}
    {u : CodeUnit} (h : o.toUnit ids = .ok u)
    (hdefinitions : ∀ c ∈ o.definitions, ∀ p ∈ c.positions, P p)
    (hdocumentation : ∀ p ∈ Documentation.positionsOf o.documentation, P p) :
    ∀ p ∈ u.positions, P p := by
  obtain ⟨-, rfl⟩ := Outline.toUnit_eq_ok_iff.mp h
  simp only [CodeUnit.positions, CodeUnit.allPositions, List.append_nil, List.forall_mem_append,
    List.mem_flatMap]
  refine ⟨?_, hdocumentation⟩
  rintro p ⟨d, hd, hp⟩
  exact hdefinitions _ (Outline.mem_number hd).1 p hp

end CodeOutline
