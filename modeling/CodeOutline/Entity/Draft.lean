/-
CodeOutline/Entity/Draft.lean

Entities of any type from named arguments.

A draft holds what is known of an entity so far.  It is filled in one step, from named arguments,
or by setters one after the other; both ways lead to the same drafts, so the entity is built by
the same checks.
-/
import CodeOutline.Entity.Argument

namespace CodeOutline

/-! ### Drafts of any type -/

/-- A draft of an entity. -/
inductive Entity.Draft where
  | position (d : Position.Draft)
  | scope (d : Scope.Draft)
  | reference (d : Reference.Draft)
  | tag (d : DocumentationTag.Draft)
  | documentation (d : Documentation.Draft)
  | definition (d : Definition.Draft)
  | unit (d : CodeUnit.Draft)

namespace Entity.Draft

/-- The entity of a draft; `fresh` is offered as its id. -/
def build (fresh : String) : Entity.Draft → Except ArgumentError Entity
  | .position d => d.build.map .position
  | .scope d => d.build.map .scope
  | .reference d => d.build.map .reference
  | .tag d => d.build.map .tag
  | .documentation d => d.build.map .documentation
  | .definition d => (d.build fresh).map .definition
  | .unit d => (d.build fresh).map .unit

/-- The type of the entity that is drafted. -/
def type : Entity.Draft → EntityType
  | .position _ => .position
  | .scope _ => .scope
  | .reference _ => .reference
  | .tag _ => .tag
  | .documentation _ => .documentation
  | .definition _ => .definition
  | .unit _ => .unit

/-- A draft in which nothing is set. -/
def empty : EntityType → Entity.Draft
  | .position => .position {}
  | .scope => .scope {}
  | .reference => .reference {}
  | .tag => .tag {}
  | .documentation => .documentation {}
  | .definition => .definition {}
  | .unit => .unit {}

end Entity.Draft

/-! ### Named arguments -/

namespace EntityType

/-- The arguments of a type, and whether they have a default. -/
def parameters : EntityType → List (String × Bool)
  | .position => [("line", false), ("column", false), ("offset", true)]
  | .scope =>
    [("level", false), ("start", false), ("end", false), ("children", true), ("metadata", true)]
  | .reference =>
    [("kind", false), ("target_name", false), ("position", true), ("metadata", true)]
  | .tag => [("name", false), ("value", true), ("attributes", true)]
  | .documentation =>
    [("format", false), ("description", true), ("position", true), ("tags", true),
      ("metadata", true)]
  | .definition =>
    [("name", false), ("kind", false), ("scope", false), ("position", false),
      ("references", true), ("documentation", true), ("metadata", true), ("id", true)]
  | .unit =>
    [("name", false), ("type", false), ("definitions", true), ("dependencies", true),
      ("documentation", true), ("metadata", true), ("id", true)]

/-- Checks that all arguments are known and none without a default is missing. -/
def checkNames (t : EntityType) (names : List String) : Except ArgumentError Unit :=
  let call := t.name ++ ".__init__()"
  match names.find? (fun n => !(t.parameters.any (fun p => p.1 == n))) with
  | some n => .error (.unexpected call n)
  | none =>
    match t.parameters.filter (fun p => !p.2 && !names.contains p.1) with
    | [] => .ok ()
    | ps => .error (.missing call (ps.map Prod.fst))

end EntityType

open Argument in
/-- The draft that named arguments describe. -/
def Entity.Draft.ofArguments (t : EntityType) (args : List (String × Argument)) : Entity.Draft :=
  let arg (name : String) : Argument := (Assoc.find? (· == ·) name args).getD .null
  let textOr (name default : String) : Value :=
    match Assoc.find? (· == ·) name args with
    | some a => a.toValue
    | none => default
  let offset : Argument := (Assoc.find? (· == ·) "offset" args).getD (.scalar (.int 0))
  let mapping (name : String) := expectMapping name (arg name)
  match t with
  | .position =>
    .position
      { line := expectInteger "line" (arg "line"), column := expectInteger "column" (arg "column"),
        offset := expectInteger "offset" offset }
  | .scope =>
    .scope
      { level := expect scopeLevel? "ScopeLevel" "level" (arg "level"),
        start := expect position? "Position" "start" (arg "start"),
        stop := expect position? "Position" "end" (arg "end"),
        children := expectElements scope? "Scope" "children" (arg "children"),
        metadata := mapping "metadata" }
  | .reference =>
    .reference
      { kind := expect referenceKind? "ReferenceKind" "kind" (arg "kind"),
        targetName := (arg "target_name").toValue,
        position := expectOption position? "Position" "position" (arg "position"),
        metadata := mapping "metadata" }
  | .tag =>
    .tag
      { name := (arg "name").toValue, value := textOr "value" "",
        attributes := mapping "attributes" }
  | .documentation =>
    .documentation
      { format := expect documentationFormat? "DocumentationFormat" "format" (arg "format"),
        description := textOr "description" "",
        position := expectOption position? "Position" "position" (arg "position"),
        tags := expectElements tag? "DocumentationTag" "tags" (arg "tags"),
        metadata := mapping "metadata" }
  | .definition =>
    .definition
      { name := (arg "name").toValue,
        kind := expect definitionKind? "DefinitionKind" "kind" (arg "kind"),
        scope := expect scope? "Scope" "scope" (arg "scope"),
        position := expect position? "Position" "position" (arg "position"),
        references := expectElements reference? "Reference" "references" (arg "references"),
        documentation :=
          expectOption documentation? "Documentation" "documentation" (arg "documentation"),
        metadata := mapping "metadata", id := (arg "id").toValue }
  | .unit =>
    .unit
      { name := (arg "name").toValue, type := expect unitType? "UnitType" "type" (arg "type"),
        definitions := expectElements definition? "Definition" "definitions" (arg "definitions"),
        dependencies := expectElements unit? "CodeUnit" "dependencies" (arg "dependencies"),
        documentation :=
          expectOption documentation? "Documentation" "documentation" (arg "documentation"),
        metadata := mapping "metadata", id := (arg "id").toValue }

/-- The entity of a type that named arguments describe. -/
def Entity.ofArguments (fresh : String) (t : EntityType) (args : List (String × Argument)) :
    Except ArgumentError Entity := do
  t.checkNames (args.map Prod.fst)
  (Entity.Draft.ofArguments t args).build fresh

/-! ### Positions counted from zero -/

/-- The position one line and one column further than three arguments say. -/
def Position.shifted (line column offset : Argument) : Except ArgumentError Position := do
  let line ← line.plusOne
  let column ← column.plusOne
  Draft.build
    { line := line.expectInteger "line", column := column.expectInteger "column",
      offset := offset.expectInteger "offset" }

/-- The position that arguments describe whose line and column are counted from zero. -/
def Position.ofZeroBased (args : List Argument) : Except ArgumentError Position :=
  let call := "Position.from_zero_based()"
  match args with
  | [] => .error (.missing call ["line", "column"])
  | [_] => .error (.missing call ["column"])
  | [line, column] => shifted line column (.scalar (.int 0))
  | [line, column, offset] => shifted line column offset
  | args => .error (.surplus call 3 4 (args.length + 1))

end CodeOutline
