/-
CodeOutline/Entity/CodeUnit.lean

Units: everything that is known about one file or module.

A unit owns its definitions and its documentation.  The units it depends on are shared with
others, so when it is written out they are given by id and name only.
-/
import CodeOutline.Entity.Definition

namespace CodeOutline

/-- One file or module. -/
structure CodeUnit where
  id : Value
  name : Value
  type : UnitType
  definitions : List Definition
  dependencies : List CodeUnit
  documentation : Option Documentation
  metadata : Metadata
  deriving Repr

namespace CodeUnit

/-! ### Building -/

/-- The argument places of a unit. -/
structure Draft where
  name : Value := .null
  type : Slot UnitType := .error (.null "type")
  definitions : Slot (List (Slot Definition)) := .ok []
  dependencies : Slot (List (Slot CodeUnit)) := .ok []
  documentation : Slot (Option Documentation) := .ok none
  metadata : Slot (List (Scalar × Value)) := .ok []
  id : Value := .null

/-- The unit of a draft. -/
def Draft.build (fresh : String) (d : Draft) : Except ArgumentError CodeUnit := do
  require (d.name.isBlank = false) (.blank "name")
  let type ← d.type
  let documentation ← d.documentation
  let definitions ← fillAll (← d.definitions)
  let dependencies ← fillAll (← d.dependencies)
  let metadata := Metadata.ofEntries (← d.metadata)
  return ⟨idOr fresh d.id, d.name, type, definitions, dependencies, documentation, metadata⟩

/-- The setters of a unit. -/
inductive Call where
  | id (v : Value)
  | name (v : Value)
  | type (s : Slot UnitType)
  | documentation (s : Slot (Option Documentation))
  | addDefinition (s : Slot Definition)
  | addDefinitions (ss : List (Slot Definition))
  | addDependency (s : Slot CodeUnit)
  | addDependencies (ss : List (Slot CodeUnit))
  | metadata (es : List (Scalar × Value))
  | addMetadata (key : Scalar) (value : Value)

/-- A draft after a setter. -/
def Draft.apply (d : Draft) : Call → Draft
  | .id v => { d with id := v }
  | .name v => { d with name := v }
  | .type s => { d with type := s }
  | .documentation s => { d with documentation := s }
  | .addDefinition s => { d with definitions := d.definitions.map (· ++ [s]) }
  | .addDefinitions ss => { d with definitions := d.definitions.map (· ++ ss) }
  | .addDependency s => { d with dependencies := d.dependencies.map (· ++ [s]) }
  | .addDependencies ss => { d with dependencies := d.dependencies.map (· ++ ss) }
  | .metadata es => { d with metadata := .ok es }
  | .addMetadata k v => { d with metadata := d.metadata.map (Assoc.insert Scalar.same k v) }

/-! ### Queries -/

/-- The definitions of a kind, in order. -/
def definitionsOf (u : CodeUnit) (kind : DefinitionKind) : List Definition :=
  u.definitions.filter (fun d => d.kind == kind)

/-- Whether two units are equal. -/
def same (a b : CodeUnit) : Bool := a.id.same b.id

/-- The key of a unit. -/
def key (u : CodeUnit) : Key := u.id.key

/-! ### Writing out -/

/-- What a unit is called by the units that depend on it. -/
def nameToJson (withIds : Bool) (u : CodeUnit) : Except Unordered Json := do
  let id ← if withIds then (do return [("id", ← u.id.toJson)]) else .ok []
  return .obj (id ++ [("name", ← u.name.toJson)])

/-- A unit in JSON, with ids or without. -/
def toJson (withIds : Bool) (u : CodeUnit) : Except Unordered Json := do
  let id ← if withIds then (do return [("id", ← u.id.toJson)]) else .ok []
  return .obj (id ++ [("name", ← u.name.toJson), ("type", .str u.type.code),
    ("definitions", .arr (← u.definitions.mapM (·.toJson withIds))),
    ("dependencies", .arr (← u.dependencies.mapM (·.nameToJson withIds))),
    ("documentation", ← Documentation.optionToJson u.documentation),
    ("metadata", ← u.metadata.toJson)])

end CodeUnit

end CodeOutline
