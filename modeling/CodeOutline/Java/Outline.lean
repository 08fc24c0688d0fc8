/-
CodeOutline/Java/Outline.lean

The outline of a Java unit.

Every type declaration of the tree, at any depth and in source order, gives a definition, and the
definitions of the methods, constructors and fields directly in its body follow it.  Interfaces,
annotation types and enumerations give no member definitions.  The scope of a type holds the
scopes of its members.
-/
import CodeOutline.Java.Part
import CodeOutline.Java.Problem

namespace CodeOutline.Java

/-! ### Kinds of declarations -/

/-- The kind of definition that a type declaration gives. -/
def typeKind? (kind : String) : Option DefinitionKind :=
  match kind with
  | "class_declaration" => some .type
  | "record_declaration" => some .type
  | "interface_declaration" => some .interface
  | "annotation_type_declaration" => some .interface
  | "enum_declaration" => some .enum
  | _ => none

/-- Whether a node declares a type. -/
def isType (n : Node) : Bool := (typeKind? n.kind).isSome

/-- Whether a node declares a type whose members are definitions. -/
def isConcrete (n : Node) : Bool :=
  n.kind == "class_declaration" || n.kind == "record_declaration"

/-- Whether a node declares a constructor. -/
def isConstructor (n : Node) : Bool :=
  n.kind == "constructor_declaration" || n.kind == "compact_constructor_declaration"

/-! ### Members -/

/-- What all members have: scope, documentation and references to annotations. -/
structure Frame where
  scope : Scope
  documentation : Option Documentation
  references : List Reference

/-- The frame of a member. -/
def frame (t : LineIndex) (l : Located) : Except Failure Frame := do
  let scope ← scopeOf t (memberLevel (modifiersOf l.node)) l.node []
  let documentation ← built (documentationOf t l)
  let references ← built (annotationReferences t l.node)
  return ⟨scope, documentation, references⟩

/-- A member of a type, from its frame. -/
def Frame.member (f : Frame) (name : String) (kind : DefinitionKind) (owner : String)
    (facts : List (Scalar × Value)) : Except Failure Definition.Content :=
  built (Definition.Content.make name kind f.scope f.scope.start f.references f.documentation
    ((.text "declaringType", (owner : Value)) :: facts))

/-- A method. -/
def method (t : LineIndex) (owner : String) (l : Located) : Except Failure Definition.Content := do
  let n := l.node
  let name ← nameOf t n
  let text := typeText t (n.fieldChild? "type") n
  let returnType ← (needed (Need.returnType name).message
    (.ok (if text == "" then none else some text))).mapError .unmet
  let f ← frame t l
  let parameters ← parameterNames t (n.fieldChild? "parameters")
  let modifiers := modifiersOf n
  f.member name .function owner
    [(.text "returnType", returnType), (.text "parameters", .texts parameters),
      (.text "isStatic", .bool (modifiers.contains "static")),
      (.text "isAbstract", .bool (modifiers.contains "abstract"))]

/-- A constructor.  A compact one has the components of its record as parameters. -/
def constructor (t : LineIndex) (owner : String) (declaration : Node) (l : Located) :
    Except Failure Definition.Content := do
  let n := l.node
  let name ← nameOf t n
  let f ← frame t l
  let holder := if n.kind = "compact_constructor_declaration" then declaration else n
  let parameters ← parameterNames t (holder.fieldChild? "parameters")
  f.member name .function owner
    [(.text "isConstructor", .bool true), (.text "parameters", .texts parameters)]

/-- One variable of a field declaration. -/
def variableOf (t : LineIndex) (owner : String) (l : Located) (declarator : Node) :
    Except Failure Definition.Content := do
  let name ← nameOf t declarator
  let f ← frame t l
  let modifiers := modifiersOf l.node
  f.member name .variable owner
    [(.text "type", typeText t (l.node.fieldChild? "type") declarator),
      (.text "isStatic", .bool (modifiers.contains "static")),
      (.text "isFinal", .bool (modifiers.contains "final"))]

/-- The definitions that one child of a body gives. -/
def memberDefinitions (t : LineIndex) (owner : String) (declaration : Node) (l : Located) :
    Except Failure (List Definition.Content) :=
  if !l.node.named then .ok []
  else if l.node.kind = "method_declaration" then (method t owner l).map ([·])
  else if isConstructor l.node then (constructor t owner declaration l).map ([·])
  else if l.node.kind = "field_declaration" then
    (l.node.fieldChildren "declarator").mapM (variableOf t owner l)
  else .ok []

/-- The children of the body of a type in their surroundings. -/
def bodyChildren (l : Located) : List Located :=
  match l.children.find? (fun c => c.node.field == some "body") with
  | none => []
  | some body => body.children

/-- The definitions of the members of a type. -/
def members (t : LineIndex) (owner : String) (l : Located) :
    Except Failure (List Definition.Content) :=
  if isConcrete l.node then
    ((bodyChildren l).mapM (memberDefinitions t owner l.node)).map List.flatten
  else .ok []

/-! ### Types -/

/-- What is particular to one kind of type: facts and references. -/
abbrev Particulars := List (Scalar × Value) × List Reference

/-- The particulars of a class or record. -/
def concreteParticulars (t : LineIndex) (n : Node) : Except Failure Particulars := do
  let supertypes := typeNodes (n.fieldChild? "superclass")
  let superclass := supertypes.drop (supertypes.length - 1)
  let interfaces := typeNodes (n.fieldChild? "interfaces")
  let extend ← built (superclass.mapM (typeReference t .extend))
  let implement ← built (interfaces.mapM (typeReference t .implement))
  let modifiers := modifiersOf n
  let record ←
    if n.kind = "record_declaration" then do
      let components ← parameterNames t (n.fieldChild? "parameters")
      pure [(Scalar.text "isRecord", Value.bool true), (.text "components", .texts components)]
    else pure []
  return ([(.text "isAbstract", .bool (modifiers.contains "abstract")),
      (.text "isFinal", .bool (modifiers.contains "final")),
      (.text "superclass", .textOrNull (typeNames t superclass).head?),
      (.text "interfaces", .texts (typeNames t interfaces))] ++ record,
    extend ++ implement)

/-- The particulars of an enumeration. -/
def enumParticulars (t : LineIndex) (n : Node) : Except Failure Particulars := do
  let interfaces := typeNodes (n.fieldChild? "interfaces")
  let body := (n.fieldChild? "body").elim [] Node.namedChildren
  let constants ← (body.filter (fun c => c.kind == "enum_constant")).mapM (nameOf t)
  let implement ← built (interfaces.mapM (typeReference t .implement))
  return ([(.text "constants", .texts constants),
    (.text "interfaces", .texts (typeNames t interfaces))], implement)

/-- The particulars of an interface or annotation type. -/
def interfaceParticulars (t : LineIndex) (n : Node) : Except Failure Particulars := do
  let supertypes := typeNodes (n.childOfKind? "extends_interfaces")
  let extend ← built (supertypes.mapM (typeReference t .extend))
  let mark :=
    if n.kind = "annotation_type_declaration" then [(Scalar.text "isAnnotation", Value.bool true)]
    else []
  return ((.text "superInterfaces", .texts (typeNames t supertypes)) :: mark, extend)

/-- The particulars of a type. -/
def particulars (t : LineIndex) (n : Node) : Except Failure Particulars :=
  if isConcrete n then concreteParticulars t n
  else if n.kind = "enum_declaration" then enumParticulars t n
  else interfaceParticulars t n

/-- The name of the innermost type around a node. -/
def declaringType (t : LineIndex) (l : Located) : Except Failure (List (Scalar × Value)) :=
  match l.ancestors.find? isType with
  | none => .ok []
  | some n => do return [(.text "declaringType", (← nameOf t n : Value))]

/-- A type declaration: its definition and those of its members. -/
def typeDefinitions (t : LineIndex) (kind : DefinitionKind) (l : Located) :
    Except Failure (List Definition.Content) := do
  let n := l.node
  let name ← nameOf t n
  let members ← members t name l
  let scope ← scopeOf t (typeLevel (modifiersOf n)) n (members.map (·.scope))
  let documentation ← built (documentationOf t l)
  let annotations ← built (annotationReferences t n)
  let (facts, references) ← particulars t n
  let declaring ← declaringType t l
  let definition ← built (Definition.Content.make name kind scope scope.start
    (annotations ++ references) documentation (facts ++ declaring))
  return definition :: members

/-! ### Units -/

/-- The definitions that a node gives. -/
def definitionsAt (t : LineIndex) (l : Located) : Except Failure (List Definition.Content) :=
  match typeKind? l.node.kind with
  | none => .ok []
  | some kind => typeDefinitions t kind l

/-- The definitions of a unit. -/
def definitions (t : LineIndex) (root : Node) : Except Failure (List Definition.Content) :=
  ((Located.walk [.ofRoot root]).mapM (definitionsAt t)).map List.flatten

/-- The documentation comments of a unit, in source order. -/
def documentationBlocks (t : LineIndex) (root : Node) :
    Except ArgumentError (List Documentation) :=
  ((Located.walk [.ofRoot root]).mapM (fun l => commentDocumentation t l.node)).map
    (fun ds => ds.filterMap id)

/-- The outline of a unit. -/
def outline (t : LineIndex) (name : String) (root : Node) : Except Failure Outline := do
  let definitions ← definitions t root
  let blocks ← built (documentationBlocks t root)
  return {
    name := name
    type := .file
    definitions := definitions
    documentation := blocks.head?
    metadata := [(.text "packageName", packageName t root),
      (.text "imports", .texts (importNames t root)), (.text "language", "java")] }

/-- The unit of a parsed source. -/
def convert (ids : IdSource) (parsed : Option (Parsed Node)) : Except AnalysisError CodeUnit := do
  let (p, root) ← Parsed.requireTree parsed
  let unit : Except Failure CodeUnit := do
    let o ← outline (.ofSource p.source) p.unitName root
    built (o.toUnit ids)
  unit.mapError (.unconverted p.unitName)

/-- The documentation comments of a parsed source. -/
def convertDocumentation (parsed : Option (Parsed Node)) :
    Except AnalysisError (List Documentation) :=
  match Parsed.requireTree parsed with
  | .ok (p, root) =>
    (documentationBlocks (.ofSource p.source) root).mapError .argument
  | .error (.unparsed unit problems) => .error (.unparsedDocumentation unit problems)
  | .error e => .error e

/-- A parser of octets, some of which come from a file. -/
abbrev Parser := Option Path → Text.Utf8.Octets → Node

/-- What the parser made of some octets. -/
def parsed (parser : Parser) (path : Option Path)
    (source : Text.Utf8.Octets) : Parsed Node :=
  let root := parser path source
  { path := path, source := source, tree := some root,
    problems := (problems (.ofSource source) root).map Problem.message }

end CodeOutline.Java
