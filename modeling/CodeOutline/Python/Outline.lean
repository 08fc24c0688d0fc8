/-
CodeOutline/Python/Outline.lean

The outline of a Python module.

The statements of a module give definitions in source order: functions and variables of the module
itself, and classes wherever they are written.  Right after a class that is neither an interface
nor an enumeration come the functions, properties and variables of its body, whose scopes are held
by the scope of the class; then the classes within its body.
-/
import CodeOutline.Python.Class
import CodeOutline.Python.Import
import CodeOutline.Python.ModuleName
import CodeOutline.Python.Problem

namespace CodeOutline.Python

/-! ### Definitions -/

/-- What all definitions have: scope, documentation and references to decorators. -/
structure Frame where
  scope : Scope
  documentation : Option Documentation
  references : List Reference

/-- The frame of a definition. -/
def frame (t : LineIndex) (level : ScopeLevel) (n : Node) (children : List Scope) :
    Except Failure Frame := do
  let (start, stop) ← spanOf t n
  let scope ← built (Scope.make level start stop children)
  let documentation ← docstringOf t n
  let references ← decoratorReferences t n
  return ⟨scope, documentation, references⟩

/-- The name of the class that a definition belongs to. -/
def declaringType : Option String → List (Scalar × Value)
  | none => []
  | some owner => [(.text "declaringType", (owner : Value))]

/-- A definition from its frame. -/
def Frame.define (f : Frame) (name : String) (kind : DefinitionKind) (owner : Option String)
    (references : List Reference) (facts : List (Scalar × Value)) :
    Except Failure Definition.Content :=
  built (Definition.Content.make name kind f.scope f.scope.start (f.references ++ references)
    f.documentation (declaringType owner ++ facts))

/-- A function of a module or class. -/
def function (t : LineIndex) (owner : Option String) (n : Node) :
    Except Failure Definition.Content := do
  let name ← nameIn "name" n
  let isStatic := (decoratorNames n).contains "staticmethod"
  let f ← frame t (levelOf owner name) n []
  let parameters ← sound (parameterNames n (owner.isSome && !isStatic))
  let result : Scalar × Value ←
    if owner.isSome && name == "__init__" then pure (.text "isConstructor", .bool true)
    else do pure (.text "returnType", ← sound (annotationText (n.child? "returns")))
  f.define name .function owner []
    [(.text "parameters", .list parameters), result,
      (.text "isStatic", .bool isStatic), (.text "isAbstract", .bool (isAbstractFunction n)),
      (.text "isAsync", .bool (n.kind == "AsyncFunctionDef"))]

/-- A property of a class. -/
def property (t : LineIndex) (owner : Option String) (n : Node) :
    Except Failure Definition.Content := do
  let name ← nameIn "name" n
  let f ← frame t (memberLevel name) n []
  let type ← sound (annotationText (n.child? "returns"))
  f.define name .property owner []
    [(.text "type", type), (.text "isAbstract", .bool (isAbstractFunction n))]

/-- The variables that an assignment defines. -/
def assignedVariables (t : LineIndex) (owner : Option String) (n : Node) :
    Except Failure (List Definition.Content) := do
  let declared := if n.kind = "AnnAssign" then n.child? "annotation" else none
  let type ← sound (annotationText declared)
  (assignedNames n).mapM fun target => do
    let name ← nameIn "id" target
    let f ← frame t (levelOf owner name) n []
    f.define name .variable owner []
      ([(.text "type", type),
        (.text "isFinal", .bool (declared.map lastName == some "Final"))] ++
        (if owner.isSome then [(.text "isStatic", .bool true)] else []))

/-- The definitions that one statement of a class's body gives. -/
def memberDefinitions (t : LineIndex) (owner : Option String) (n : Node) :
    Except Failure (List Definition.Content) :=
  if n.isFunction then
    if isAccessor n then .ok []
    else if isProperty n then (property t owner n).map ([·])
    else (function t owner n).map ([·])
  else if n.isAssignment then assignedVariables t owner n
  else .ok []

/-- The members of a class. -/
def members (t : LineIndex) (n : Node) : Except Failure (List Definition.Content) :=
  if classKind n = .type then
    (n.body.mapM (memberDefinitions t (n.text? "name"))).map List.flatten
  else .ok []

/-- The statements of a body, none of which may be missing. -/
def statements (n : Node) : Except TreeDefect (List Node) :=
  if (n.places "body").any Node.isGap then .error (.emptyPlace "_fields") else .ok n.body

/-- The definition of a class and those of its members. -/
def classDefinitions (t : LineIndex) (c : LocatedClass) :
    Except Failure (List Definition.Content) := do
  let members ← members t c.node
  let name ← nameIn "name" c.node
  let f ← frame t (levelOf c.owner name) c.node (members.map (·.scope))
  let bases ← baseReferences t c.node
  let facts ← classFacts c.node
  let definition ← f.define name (classKind c.node) c.owner bases facts
  let _ ← sound (statements c.node)
  return definition :: members

/-- The definitions of classes, one after the other. -/
def allClassDefinitions (t : LineIndex) (cs : List LocatedClass) :
    Except Failure (List Definition.Content) :=
  (cs.mapM (classDefinitions t)).map List.flatten

/-- The definitions that one statement of a module gives. -/
def statementDefinitions (t : LineIndex) (n : Node) :
    Except Failure (List Definition.Content) :=
  if n.isGap then .error (.defect (.emptyPlace "_fields"))
  else if n.isFunction then do
    let f ← function t none n
    let nested ← allClassDefinitions t (classesAt none n)
    return f :: nested
  else if n.isAssignment then assignedVariables t none n
  else allClassDefinitions t (classesAt none n)

/-- The definitions of a module. -/
def definitions (t : LineIndex) (root : Node) : Except Failure (List Definition.Content) :=
  ((root.places "body").mapM (statementDefinitions t)).map List.flatten

/-! ### Modules -/

/-- The outline of a module with the given parts of its name. -/
def outline (t : LineIndex) (name : String) (parts : List String) (root : Node) :
    Except Failure Outline := do
  let definitions ← definitions t root
  let imports ← sound (importsOf root)
  let documentation ← docstringOf t root
  return {
    name := name
    type := .moduleUnit
    definitions := definitions
    documentation := documentation
    metadata := [(.text "packageName", packageOf parts),
      (.text "imports", .list (imports.map (fun i => .textOrNull (i.fullName parts)))),
      (.text "language", "python")] }

/-- The unit of a parsed source; `sourceRoot` is where the names of modules begin. -/
def convert (ids : IdSource) (workingDirectory : List String) (sourceRoot : Option Path)
    (parsed : Option (Parsed Node)) : Except AnalysisError CodeUnit := do
  let (p, root) ← Parsed.requireTree parsed
  let unit : Except Failure CodeUnit := do
    let parts ← moduleParts workingDirectory p.path sourceRoot
    let o ← outline (.ofSource p.source) p.unitName parts root
    built (o.toUnit ids)
  unit.mapError (.unconverted p.unitName)

end CodeOutline.Python
