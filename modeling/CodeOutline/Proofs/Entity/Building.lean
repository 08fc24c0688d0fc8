/-
CodeOutline/Proofs/Entity/Building.lean

When entities are built from parts of the right types, and what they are then.

Of the checks that an entity makes, a converter that fills all places can only fail two kinds: a
name may be blank, and the ends of a scope or its children may lie outside its range.  Each lemma
here says for one entity which of these it makes and gives the entity that is left.
-/
import CodeOutline.Entity.CodeUnit
import CodeOutline.Source.Parsed
import CodeOutline.Proofs.Outcome

namespace CodeOutline

open Outcome

theorem require_bind_eq_ok_iff {p : Prop} [Decidable p] {e : ArgumentError} {β : Type}
    {f : Unit → Except ArgumentError β} {b : β} :
    (require p e >>= f) = .ok b ↔ p ∧ f () = .ok b := by
  unfold require
  split <;> simp_all

theorem fillAll_map_ok_bind {α β : Type} (as : List α) (f : List α → Except ArgumentError β) :
    (fillAll (as.map Except.ok) >>= f) = f as := by
  rw [fillAll_map_ok, ok_bind]

theorem Scope.make_eq_ok_iff {level : ScopeLevel} {start stop : Position} {children : List Scope}
    {s : Scope} :
    Scope.make level start stop children = .ok s ↔
      stop.isBefore start = false ∧
      (∀ c ∈ children, c.start.isBefore start = false ∧ stop.isBefore c.stop = false) ∧
      s = ⟨level, start, stop, children, []⟩ := by
  simp only [Scope.make, Scope.Draft.build, ok_bind, fillAll_map_ok_bind, require_bind_eq_ok_iff,
    pure_eq, Except.ok.injEq, List.all_eq_true, Scope.contains_iff, Position.isAfter_eq]
  constructor
  · rintro ⟨hends, hin, rfl⟩
    exact ⟨hends, hin, rfl⟩
  · rintro ⟨hends, hin, rfl⟩
    exact ⟨hends, hin, rfl⟩

theorem Reference.make_eq_ok_iff {kind : ReferenceKind} {target : String} {position : Position}
    {metadata : List (Scalar × Value)} {r : Reference} :
    Reference.make kind target position metadata = .ok r ↔
      Text.allBlank target = false ∧
      r = ⟨kind, target, some position, Metadata.ofEntries metadata⟩ := by
  simp only [Reference.make, Reference.Draft.build, ok_bind, require_bind_eq_ok_iff, pure_eq,
    Except.ok.injEq]
  exact and_congr Iff.rfl eq_comm

theorem DocumentationTag.make_eq_ok_iff {name value : String}
    {attributes : List (String × String)} {t : DocumentationTag} :
    DocumentationTag.make name value attributes = .ok t ↔
      Text.allBlank name = false ∧
      t = ⟨name, value,
        Metadata.ofEntries (attributes.map (fun a => (.text a.1, .text a.2)))⟩ := by
  simp only [DocumentationTag.make, DocumentationTag.Draft.build, ok_bind,
    require_bind_eq_ok_iff, pure_eq, Except.ok.injEq]
  exact and_congr Iff.rfl eq_comm

@[simp] theorem Documentation.make_eq_ok (format : DocumentationFormat) (description : String)
    (position : Option Position) (tags : List DocumentationTag) :
    Documentation.make format description position tags
      = .ok ⟨format, description, position, tags, []⟩ := by
  simp only [Documentation.make, Documentation.Draft.build, ok_bind, fillAll_map_ok_bind, pure_eq]
  rfl

theorem Definition.Content.make_eq_ok_iff {name : String} {kind : DefinitionKind} {scope : Scope}
    {position : Position} {references : List Reference} {documentation : Option Documentation}
    {metadata : List (Scalar × Value)} {c : Definition.Content} :
    Definition.Content.make name kind scope position references documentation metadata = .ok c ↔
      Text.allBlank name = false ∧
      c = ⟨name, kind, scope, position, references, documentation,
        Metadata.ofEntries metadata⟩ := by
  simp only [Definition.Content.make, Definition.Draft.content, ok_bind, fillAll_map_ok_bind,
    require_bind_eq_ok_iff, pure_eq, Except.ok.injEq]
  exact and_congr Iff.rfl eq_comm

theorem Outline.toUnit_eq_ok_iff {ids : IdSource} {o : Outline} {u : CodeUnit} :
    o.toUnit ids = .ok u ↔
      Text.allBlank o.name = false ∧
      u = ⟨ids 0, o.name, o.type, Outline.number ids 1 o.definitions, [], o.documentation,
        Metadata.ofEntries o.metadata⟩ := by
  simp only [Outline.toUnit, CodeUnit.Draft.build, ok_bind, fillAll_map_ok_bind, fillAll,
    require_bind_eq_ok_iff, pure_eq, Except.ok.injEq]
  exact and_congr Iff.rfl eq_comm

/-- The definitions of a unit are those of its outline, with ids. -/
theorem Outline.mem_number {ids : IdSource} {next : Nat} {cs : List Definition.Content}
    {d : Definition} (h : d ∈ Outline.number ids next cs) :
    d.toContent ∈ cs ∧ ∃ n, d.id = ids n := by
  induction cs generalizing next with
  | nil => cases h
  | cons c cs ih =>
    rw [number] at h
    rcases List.mem_cons.mp h with rfl | h
    · exact ⟨List.mem_cons_self, next, rfl⟩
    · exact ⟨List.mem_cons_of_mem _ (ih h).1, (ih h).2⟩

/-! ### Errors -/

theorem errorsIn_require_bind {p : Prop} [Decidable p] {e : ArgumentError} {β : Type}
    {f : Unit → Except ArgumentError β} {Q : ArgumentError → Prop} (he : Q e)
    (hf : ErrorsIn Q (f ())) : ErrorsIn Q (require p e >>= f) := by
  refine ErrorsIn.bind ?_ fun _ => hf
  unfold require
  split
  · exact errorsIn_ok ()
  · rintro _ ⟨⟩
    exact he

/-- A scope of parts of the right types is refused for its ends or for its children. -/
theorem Scope.errorsIn_make (level : ScopeLevel) (start stop : Position) (children : List Scope) :
    ErrorsIn (fun e => e = .spanReversed ∨ e = .childOutside)
      (Scope.make level start stop children) := by
  simp only [Scope.make, Scope.Draft.build, ok_bind, fillAll_map_ok_bind]
  exact errorsIn_require_bind (.inl rfl) (errorsIn_require_bind (.inr rfl) (errorsIn_ok _))

theorem Reference.errorsIn_make (kind : ReferenceKind) (target : String) (position : Position)
    (metadata : List (Scalar × Value)) :
    ErrorsIn (fun e => e = .blank "target_name")
      (Reference.make kind target position metadata) := by
  simp only [Reference.make, Reference.Draft.build, ok_bind]
  exact errorsIn_require_bind rfl (errorsIn_ok _)

theorem Definition.Content.errorsIn_make (name : String) (kind : DefinitionKind) (scope : Scope)
    (position : Position) (references : List Reference) (documentation : Option Documentation)
    (metadata : List (Scalar × Value)) :
    ErrorsIn (fun e => e = .blank "name")
      (make name kind scope position references documentation metadata) := by
  simp only [make, Definition.Draft.content, ok_bind, fillAll_map_ok_bind]
  exact errorsIn_require_bind rfl (errorsIn_ok _)

theorem Outline.errorsIn_toUnit (ids : IdSource) (o : Outline) :
    ErrorsIn (fun e => e = .blank "name") (o.toUnit ids) := by
  simp only [Outline.toUnit, CodeUnit.Draft.build, ok_bind, fillAll_map_ok_bind, fillAll]
  exact errorsIn_require_bind rfl (errorsIn_ok _)

/-- The unit of an outline is there unless its name is blank. -/
theorem Outline.toUnit_eq (ids : IdSource) (o : Outline) :
    o.toUnit ids =
      if Text.allBlank o.name = false then
        .ok ⟨ids 0, o.name, o.type, Outline.number ids 1 o.definitions, [], o.documentation,
          Metadata.ofEntries o.metadata⟩
      else .error (.blank "name") := by
  split
  · next hname => exact Outline.toUnit_eq_ok_iff.mpr ⟨hname, rfl⟩
  · next hname =>
    rcases h : o.toUnit ids with e | u
    · rw [Outline.errorsIn_toUnit ids o e h]
    · exact absurd (Outline.toUnit_eq_ok_iff.mp h).1 hname

/-! ### Parses -/

theorem Parsed.requireTree_of_tree? {τ : Type} {p : Parsed τ} {tree : τ}
    (h : p.tree? = some tree) : Parsed.requireTree (some p) = .ok (p, tree) := by
  simp only [requireTree, h]

/-- What needs a tree has a result only where there is one. -/
theorem Parsed.requireTree_bind_eq_ok_iff {τ β : Type} {p : Parsed τ}
    {f : Parsed τ × τ → Except AnalysisError β} {b : β} :
    (Parsed.requireTree (some p) >>= f) = .ok b ↔
      ∃ tree, p.tree? = some tree ∧ f (p, tree) = .ok b := by
  rcases e : p.tree? with - | tree
  · simp [requireTree, e]
  · simp [requireTree_of_tree? e]

end CodeOutline
