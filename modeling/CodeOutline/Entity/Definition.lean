/-
CodeOutline/Entity/Definition.lean

Definitions: the named constructs of a unit.

A definition is its content and an id.  Two definitions are equal when their ids are, whatever
they say.  A definition that is built without an id, or with a blank one, takes the fresh id it is
offered.
-/
import CodeOutline.Entity.Documentation
import CodeOutline.Entity.Reference

namespace CodeOutline

/-- What a definition says, apart from its id. -/
structure Definition.Content where
  name : Value
  kind : DefinitionKind
  scope : Scope
  position : Position
  references : List Reference
  documentation : Option Documentation
  metadata : Metadata
  deriving Repr

/-- A named construct. -/
structure Definition extends Definition.Content where
  id : Value
  deriving Repr

/-- The id to take when `fresh` is offered in place of a blank one. -/
def idOr (fresh : String) (id : Value) : Value := if id.isBlank then fresh else id

namespace Definition

/-! ### Building -/

/-- The argument places of a definition. -/
structure Draft where
  name : Value := .null
  kind : Slot DefinitionKind := .error (.null "kind")
  scope : Slot Scope := .error (.null "scope")
  position : Slot Position := .error (.null "position")
  references : Slot (List (Slot Reference)) := .ok []
  documentation : Slot (Option Documentation) := .ok none
  metadata : Slot (List (Scalar × Value)) := .ok []
  id : Value := .null

/-- The content of a draft. -/
def Draft.content (d : Draft) : Except ArgumentError Content := do
  require (d.name.isBlank = false) (.blank "name")
  let kind ← d.kind
  let scope ← d.scope
  let position ← d.position
  let documentation ← d.documentation
  let references ← fillAll (← d.references)
  let metadata := Metadata.ofEntries (← d.metadata)
  return ⟨d.name, kind, scope, position, references, documentation, metadata⟩

/-- The definition of a draft. -/
def Draft.build (fresh : String) (d : Draft) : Except ArgumentError Definition :=
  d.content.map (fun c => ⟨c, idOr fresh d.id⟩)

/-- The content of a definition from parts of the right types. -/
def Content.make (name : String) (kind : DefinitionKind) (scope : Scope) (position : Position)
    (references : List Reference) (documentation : Option Documentation)
    (metadata : List (Scalar × Value)) : Except ArgumentError Content :=
  Draft.content
    { name := name, kind := .ok kind, scope := .ok scope, position := .ok position,
      references := .ok (references.map .ok), documentation := .ok documentation,
      metadata := .ok metadata }

/-- The setters of a definition. -/
inductive Call where
  | id (v : Value)
  | name (v : Value)
  | kind (s : Slot DefinitionKind)
  | scope (s : Slot Scope)
  | position (s : Slot Position)
  | documentation (s : Slot (Option Documentation))
  | addReference (s : Slot Reference)
  | addReferences (ss : List (Slot Reference))
  | metadata (es : List (Scalar × Value))
  | addMetadata (key : Scalar) (value : Value)

/-- A draft after a setter. -/
def Draft.apply (d : Draft) : Call → Draft
  | .id v => { d with id := v }
  | .name v => { d with name := v }
  | .kind s => { d with kind := s }
  | .scope s => { d with scope := s }
  | .position s => { d with position := s }
  | .documentation s => { d with documentation := s }
  | .addReference s => { d with references := d.references.map (· ++ [s]) }
  | .addReferences ss => { d with references := d.references.map (· ++ ss) }
  | .metadata es => { d with metadata := .ok es }
  | .addMetadata k v => { d with metadata := d.metadata.map (Assoc.insert Scalar.same k v) }

/-! ### Queries -/

/-- The references of a kind, in order. -/
def referencesOf (d : Definition) (kind : ReferenceKind) : List Reference :=
  d.references.filter (fun r => r.kind == kind)

/-- Whether two definitions are equal. -/
def same (a b : Definition) : Bool := a.id.same b.id

/-- The key of a definition. -/
def key (d : Definition) : Key := d.id.key

/-! ### Writing out -/

/-- A definition in JSON, with its id or without. -/
def toJson (withIds : Bool) (d : Definition) : Except Unordered Json := do
  let id ← if withIds then (do return [("id", ← d.id.toJson)]) else .ok []
  return .obj (id ++ [("name", ← d.name.toJson), ("kind", .str d.kind.code),
    ("scope", ← d.scope.toJson), ("position", d.position.toJson),
    ("references", .arr (← d.references.mapM (·.toJson))),
    ("documentation", ← Documentation.optionToJson d.documentation),
    ("metadata", ← d.metadata.toJson)])

end Definition

end CodeOutline
