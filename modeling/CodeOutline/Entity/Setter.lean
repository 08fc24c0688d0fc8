/-
CodeOutline/Entity/Setter.lean

Drafts filled by setters, one after the other.

A setter of a single place replaces what is there; the setters whose names begin with `add` add
to a list or a map.
-/
import CodeOutline.Entity.Draft

namespace CodeOutline

open Argument in
/-- Places of a certain type for the elements of an argument. -/
def Argument.slots {α : Type} (pick : Argument → Option α) (expected field : String)
    (a : Argument) : Except ArgumentError (List (Slot α)) :=
  a.elements.map (fun items => items.map (expect pick expected (field ++ " element")))

/-! ### Maps from arguments -/

namespace Argument

/-- The entry that the element with a number stands for, which consists of a key and its value. -/
def pair (index : Nat) (a : Argument) : Except ArgumentError (Scalar × Value) :=
  match a.elements with
  | .error _ => .error (.notAPair index)
  | .ok [k, v] => k.key.map (fun k => (k, v.toValue))
  | .ok es => .error (.notTwoLong index es.length)

/-- The entries that elements stand for, the first of which has the given number. -/
def pairs (index : Nat) : List Argument → Except ArgumentError (List (Scalar × Value))
  | [] => .ok []
  | a :: as => do
    let e ← a.pair index
    let es ← pairs (index + 1) as
    return e :: es

/-- The entries of an argument that is copied into a map: those of a map, or the keys and values
that its elements consist of. -/
def entries : Argument → Except ArgumentError (List (Scalar × Value))
  | .map entries => .ok (Assoc.ofList Scalar.same (toEntries entries))
  | a => do
    let es ← pairs 0 (← a.elements)
    return Assoc.ofList Scalar.same es

end Argument

/-! ### Setters by name -/

namespace EntityType

/-- The setters that take a single argument of the same name. -/
def plainSetters : EntityType → List String
  | .position => ["line", "column", "offset"]
  | .scope => ["level", "start", "end"]
  | .reference => ["kind", "target_name", "position"]
  | .tag => ["name", "value"]
  | .documentation => ["description", "format", "position"]
  | .definition => ["id", "name", "kind", "scope", "position", "documentation"]
  | .unit => ["id", "name", "type", "documentation"]

/-- The setters that add elements, with the names of their arguments. -/
def addingSetters : EntityType → List (String × String)
  | .scope => [("add_child", "child"), ("add_children", "children")]
  | .documentation => [("add_tag", "tag"), ("add_tags", "tags")]
  | .definition => [("add_reference", "reference"), ("add_references", "references")]
  | .unit =>
    [("add_definition", "definition"), ("add_definitions", "definitions"),
      ("add_dependency", "dependency"), ("add_dependencies", "dependencies")]
  | .position | .reference | .tag => []

/-- The setters that fill a map, with the names of their arguments and of what they belong to. -/
def mapSetters : EntityType → List (String × String × List String)
  | .position => []
  | .tag => [("add_attribute", draftName .tag, ["key", "value"])]
  | _ =>
    [("metadata", "_MetadataBuilder", ["metadata"]),
      ("add_metadata", "_MetadataBuilder", ["key", "value"])]

/-- The setters of a type, with the names of their arguments and of what they belong to. -/
def setters (t : EntityType) : List (String × String × List String) :=
  t.plainSetters.map (fun n => (n, t.draftName, [n])) ++
    t.addingSetters.map (fun n => (n.1, t.draftName, [n.2])) ++ t.mapSetters

/-- Whether a type has a setter. -/
def hasSetter (t : EntityType) (setter : String) : Bool := t.setters.any (fun s => s.1 == setter)

/-- What is wrong with a call of a setter with that many arguments; none where there is no such
setter. -/
def misfit? (t : EntityType) (setter : String) (given : Nat) : Option ArgumentError :=
  (Assoc.find? (· == ·) setter t.setters).map
    (fun (owner, names) => .ofCount (owner ++ "." ++ setter ++ "()") names given)

end EntityType

namespace Entity.Draft

open Argument

/-- A draft after a setter; none where the type has no such setter. -/
def set? (setter : String) (args : List Argument) (d : Entity.Draft) :
    Option (Except ArgumentError Entity.Draft) :=
  match d, setter, args with
  | .position d, "line", [a] => some (.ok (.position (d.apply (.line (expectInteger "line" a)))))
  | .position d, "column", [a] =>
    some (.ok (.position (d.apply (.column (expectInteger "column" a)))))
  | .position d, "offset", [a] =>
    some (.ok (.position (d.apply (.offset (expectInteger "offset" a)))))
  | .scope d, "level", [a] =>
    some (.ok (.scope (d.apply (.level (expect scopeLevel? "ScopeLevel" "level" a)))))
  | .scope d, "start", [a] =>
    some (.ok (.scope (d.apply (.start (expect position? "Position" "start" a)))))
  | .scope d, "end", [a] =>
    some (.ok (.scope (d.apply (.stop (expect position? "Position" "end" a)))))
  | .scope d, "add_child", [a] =>
    some (.ok (.scope (d.apply (.addChild (expect scope? "Scope" "children element" a)))))
  | .scope d, "add_children", [a] =>
    some ((a.slots scope? "Scope" "children").map (fun ss => .scope (d.apply (.addChildren ss))))
  | .scope d, "metadata", [a] =>
    some (a.entries.map (fun es => .scope (d.apply (.metadata es))))
  | .scope d, "add_metadata", [k, v] =>
    some (k.key.map (fun k => .scope (d.apply (.addMetadata k v.toValue))))
  | .reference d, "kind", [a] =>
    some (.ok (.reference (d.apply (.kind (expect referenceKind? "ReferenceKind" "kind" a)))))
  | .reference d, "target_name", [a] =>
    some (.ok (.reference (d.apply (.targetName a.toValue))))
  | .reference d, "position", [a] =>
    some (.ok (.reference
      (d.apply (.position (expectOption position? "Position" "position" a)))))
  | .reference d, "metadata", [a] =>
    some (a.entries.map (fun es => .reference (d.apply (.metadata es))))
  | .reference d, "add_metadata", [k, v] =>
    some (k.key.map (fun k => .reference (d.apply (.addMetadata k v.toValue))))
  | .tag d, "name", [a] => some (.ok (.tag (d.apply (.name a.toValue))))
  | .tag d, "value", [a] => some (.ok (.tag (d.apply (.value a.toValue))))
  | .tag d, "add_attribute", [k, v] =>
    some (k.key.map (fun k => .tag (d.apply (.addAttribute k v.toValue))))
  | .documentation d, "description", [a] =>
    some (.ok (.documentation (d.apply (.description a.toValue))))
  | .documentation d, "format", [a] =>
    some (.ok (.documentation
      (d.apply (.format (expect documentationFormat? "DocumentationFormat" "format" a)))))
  | .documentation d, "position", [a] =>
    some (.ok (.documentation
      (d.apply (.position (expectOption position? "Position" "position" a)))))
  | .documentation d, "add_tag", [a] =>
    some (.ok (.documentation
      (d.apply (.addTag (expect tag? "DocumentationTag" "tags element" a)))))
  | .documentation d, "add_tags", [a] =>
    some ((a.slots tag? "DocumentationTag" "tags").map
      (fun ss => .documentation (d.apply (.addTags ss))))
  | .documentation d, "metadata", [a] =>
    some (a.entries.map (fun es => .documentation (d.apply (.metadata es))))
  | .documentation d, "add_metadata", [k, v] =>
    some (k.key.map (fun k => .documentation (d.apply (.addMetadata k v.toValue))))
  | .definition d, "id", [a] => some (.ok (.definition (d.apply (.id a.toValue))))
  | .definition d, "name", [a] => some (.ok (.definition (d.apply (.name a.toValue))))
  | .definition d, "kind", [a] =>
    some (.ok (.definition
      (d.apply (.kind (expect definitionKind? "DefinitionKind" "kind" a)))))
  | .definition d, "scope", [a] =>
    some (.ok (.definition (d.apply (.scope (expect scope? "Scope" "scope" a)))))
  | .definition d, "position", [a] =>
    some (.ok (.definition (d.apply (.position (expect position? "Position" "position" a)))))
  | .definition d, "documentation", [a] =>
    some (.ok (.definition
      (d.apply (.documentation
        (expectOption documentation? "Documentation" "documentation" a)))))
  | .definition d, "add_reference", [a] =>
    some (.ok (.definition
      (d.apply (.addReference (expect reference? "Reference" "references element" a)))))
  | .definition d, "add_references", [a] =>
    some ((a.slots reference? "Reference" "references").map
      (fun ss => .definition (d.apply (.addReferences ss))))
  | .definition d, "metadata", [a] =>
    some (a.entries.map (fun es => .definition (d.apply (.metadata es))))
  | .definition d, "add_metadata", [k, v] =>
    some (k.key.map (fun k => .definition (d.apply (.addMetadata k v.toValue))))
  | .unit d, "id", [a] => some (.ok (.unit (d.apply (.id a.toValue))))
  | .unit d, "name", [a] => some (.ok (.unit (d.apply (.name a.toValue))))
  | .unit d, "type", [a] =>
    some (.ok (.unit (d.apply (.type (expect unitType? "UnitType" "type" a)))))
  | .unit d, "documentation", [a] =>
    some (.ok (.unit
      (d.apply (.documentation
        (expectOption documentation? "Documentation" "documentation" a)))))
  | .unit d, "add_definition", [a] =>
    some (.ok (.unit
      (d.apply (.addDefinition (expect definition? "Definition" "definitions element" a)))))
  | .unit d, "add_definitions", [a] =>
    some ((a.slots definition? "Definition" "definitions").map
      (fun ss => .unit (d.apply (.addDefinitions ss))))
  | .unit d, "add_dependency", [a] =>
    some (.ok (.unit
      (d.apply (.addDependency (expect unit? "CodeUnit" "dependencies element" a)))))
  | .unit d, "add_dependencies", [a] =>
    some ((a.slots unit? "CodeUnit" "dependencies").map
      (fun ss => .unit (d.apply (.addDependencies ss))))
  | .unit d, "metadata", [a] => some (a.entries.map (fun es => .unit (d.apply (.metadata es))))
  | .unit d, "add_metadata", [k, v] =>
    some (k.key.map (fun k => .unit (d.apply (.addMetadata k v.toValue))))
  | d, setter, args => (d.type.misfit? setter args.length).map .error

end Entity.Draft

end CodeOutline
