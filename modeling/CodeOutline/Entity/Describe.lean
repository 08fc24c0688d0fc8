/-
CodeOutline/Entity/Describe.lean

Entities as descriptions show them.

A description gives the type of an entity and all its fields by name, with the parts described in
the same way.  It is how an entity is spelled where it serves as a key.
-/
import CodeOutline.Entity
import CodeOutline.Metadata.Describe

namespace CodeOutline

/-- A type with fields and their descriptions. -/
def describeFields (type : EntityType) (fields : List (String × String)) : String :=
  type.name ++ "(" ++ commaList (fields.map (fun f => f.1 ++ "=" ++ f.2)) ++ ")"

/-- A part that may not be there. -/
def describeOption {α : Type} (describe : α → String) : Option α → String
  | none => Scalar.null.describe
  | some a => describe a

/-- Parts in order. -/
def describeAll {α : Type} (describe : α → String) (as : List α) : String :=
  describeFixedList (as.map describe)

/-- A position as descriptions show it. -/
def Position.describe (p : Position) : String :=
  describeFields .position
    [("line", toString p.line), ("column", toString p.column), ("offset", toString p.offset)]

namespace Scope

mutual

/-- A scope as descriptions show it. -/
def describe : Scope → String
  | ⟨level, start, stop, children, metadata⟩ =>
    describeFields .scope
      [("level", (Word.scopeLevel level).describe), ("start", start.describe),
        ("end", stop.describe), ("children", describeFixedList (describeChildren children)),
        ("metadata", Metadata.describe metadata)]

/-- Scopes as descriptions show them. -/
def describeChildren : List Scope → List String
  | [] => []
  | s :: ss => describe s :: describeChildren ss

end

end Scope

/-- A reference as descriptions show it. -/
def Reference.describe (r : Reference) : String :=
  describeFields .reference
    [("kind", (Word.referenceKind r.kind).describe), ("target_name", r.targetName.describe false),
      ("position", describeOption Position.describe r.position),
      ("metadata", r.metadata.describe)]

/-- A tag as descriptions show it. -/
def DocumentationTag.describe (t : DocumentationTag) : String :=
  describeFields .tag
    [("name", t.name.describe false), ("value", t.value.describe false),
      ("attributes", t.attributes.describe)]

/-- A piece of documentation as descriptions show it. -/
def Documentation.describe (d : Documentation) : String :=
  describeFields .documentation
    [("format", (Word.documentationFormat d.format).describe),
      ("description", d.description.describe false),
      ("position", describeOption Position.describe d.position),
      ("tags", describeAll DocumentationTag.describe d.tags), ("metadata", d.metadata.describe)]

/-- A definition as descriptions show it. -/
def Definition.describe (d : Definition) : String :=
  describeFields .definition
    [("name", d.name.describe false), ("kind", (Word.definitionKind d.kind).describe),
      ("scope", d.scope.describe), ("position", d.position.describe),
      ("references", describeAll Reference.describe d.references),
      ("documentation", describeOption Documentation.describe d.documentation),
      ("metadata", d.metadata.describe), ("id", d.id.describe false)]

namespace CodeUnit

mutual

/-- A unit as descriptions show it, with the units it depends on. -/
def describe : CodeUnit → String
  | ⟨id, name, type, definitions, dependencies, documentation, metadata⟩ =>
    describeFields .unit
      [("name", name.describe false), ("type", (Word.unitType type).describe),
        ("definitions", describeAll Definition.describe definitions),
        ("dependencies", describeFixedList (describeDependencies dependencies)),
        ("documentation", describeOption Documentation.describe documentation),
        ("metadata", Metadata.describe metadata), ("id", id.describe false)]

/-- Units as descriptions show them. -/
def describeDependencies : List CodeUnit → List String
  | [] => []
  | u :: us => describe u :: describeDependencies us

end

end CodeUnit

namespace Entity

/-- An entity as descriptions show it. -/
def describe : Entity → String
  | .position p => p.describe
  | .scope s => s.describe
  | .reference r => r.describe
  | .tag t => t.describe
  | .documentation d => d.describe
  | .definition d => d.describe
  | .unit u => u.describe

/-- The token that stands for an entity with a number.  It is written as the entity is, or as its
description where that is not possible. -/
def token (e : Entity) (number : Nat) : Token where
  type := e.type.name
  number := number
  text := e.describe
  json :=
    match e.toJson true with
    | .ok j => j
    | .error _ => .str e.describe

end Entity

end CodeOutline
