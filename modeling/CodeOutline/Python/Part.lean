/-
CodeOutline/Python/Part.lean

Parts of Python definitions: places, docstrings, references, parameters, names assigned to.

A node is placed by lines and columns, which must exist in the source text.  A range, a list of
parameters or a name that is needed and not there stops the conversion.
-/
import CodeOutline.Python.Annotation
import CodeOutline.Python.Name
import CodeOutline.Source.Parsed

namespace CodeOutline.Python

/-! ### Places -/

/-- The offset of a column of a line. -/
def offsetOf (t : LineIndex) (line column : Int) : Except Failure Int :=
  match t.lineStart? line with
  | none => .error .noSuchLine
  | some start => .ok (start + column)

/-- The position at a column of a line. -/
def positionOf (t : LineIndex) (line column : Int) : Except Failure Position := do
  built (t.positionAt (← offsetOf t line column))

/-- Where a node begins. -/
def startOf (t : LineIndex) (n : Node) : Except Failure Position :=
  match n.range with
  | none => .error (.defect (.noPart n.kind "lineno"))
  | some r => positionOf t r.line r.column

/-- The first and the last position of a range; none for a range without an end or without a
character. -/
def spanIn (t : LineIndex) (r : Range) : Except Failure (Option (Position × Position)) :=
  match r.endLine, r.endColumn with
  | some endLine, some endColumn => do
    let start ← offsetOf t r.line r.column
    let stop ← offsetOf t endLine endColumn
    built (t.spanAt start stop)
  | _, _ => .ok none

/-- The first and the last position of a definition. -/
def spanOf (t : LineIndex) (n : Node) : Except Failure (Position × Position) :=
  match n.range with
  | none => .error (.defect (.noPart n.kind "lineno"))
  | some r =>
    (needed (Need.range n.kind r.line).message ((spanIn t r).mapError Failure.message)).mapError
      .unmet

/-! ### Documentation -/

/-- The text that a statement consists of. -/
def statementText? (n : Node) : Option String :=
  if n.kind = "Expr" then
    match n.child? "value" with
    | none => none
    | some value =>
      match value.attribute? "value" with
      | some (.literal (.text s)) => if value.kind = "Constant" then some s else none
      | _ => none
  else none

/-- The documentation of a module, class or function: a text that is its first statement. -/
def docstringOf (t : LineIndex) (n : Node) : Except Failure (Option Documentation) :=
  if n.isDocumented then
    match n.places "body" with
    | [] => .ok none
    | first :: _ =>
      match statementText? first with
      | none => .ok none
      | some s => do
        let start ← startOf t first
        let text := String.ofList (Text.cleanMargin s.toList)
        return some (← (Docstring.parse text (some start)).mapError .docstring)
  else .ok none

/-! ### References -/

/-- The nodes that have a name, with it. -/
def named (ns : List Node) : List (String × Node) :=
  ns.filterMap (fun n =>
    match dottedName? n with
    | none => none
    | some name => if name == "" then none else some (name, n))

/-- The reference to a name where a node begins. -/
def referenceAt (t : LineIndex) (kind : ReferenceKind) (n : Node) (target : String)
    (metadata : List (Scalar × Value)) : Except Failure Reference := do
  let start ← startOf t n
  built (Reference.make kind target start metadata)

/-- The references to the decorators of a definition. -/
def decoratorReferences (t : LineIndex) (n : Node) : Except Failure (List Reference) :=
  (named (n.inRole "decorator_list")).mapM fun (name, d) =>
    referenceAt t .use d name [(.text "decorator", .bool true)]

/-- The bases of a class with their names. -/
def basesOf (n : Node) : List (String × Node) :=
  (named (n.inRole "bases")).filter (fun b => b.1 != "object")

/-- The references to the bases of a class. -/
def baseReferences (t : LineIndex) (n : Node) : Except Failure (List Reference) :=
  (basesOf n).mapM fun (name, b) =>
    referenceAt t .extend b (lastSegment name) [(.text "qualifiedName", (name : Value))]

/-! ### Functions -/

/-- The name of a parameter, which may be missing. -/
def parameterName (n : Node) : Except TreeDefect Value :=
  if n.isGap then .error (.emptyPlace "arg") else .ok (.textOrNull (n.text? "arg"))

/-- The names of the parameters of a function.  The first positional one is left out where it
stands for the object or class itself. -/
def parameterNames (n : Node) (skipFirst : Bool) : Except TreeDefect (List Value) :=
  match n.child? "args" with
  | none => .error (.emptyPlace "posonlyargs")
  | some a => do
    let positional ← (a.places "posonlyargs" ++ a.places "args").mapM parameterName
    let others ← (a.places "vararg" ++ a.places "kwonlyargs" ++ a.places "kwarg").mapM parameterName
    return (if skipFirst then positional.drop 1 else positional) ++ others

/-- The text of an annotation, if there is one. -/
def annotationText : Option Node → Except TreeDefect Value
  | none => .ok .null
  | some declared => do return .text (← Annotation.render declared)

/-! ### Assignments -/

/-- The targets of an assignment. -/
def targetsOf (n : Node) : List Node :=
  if n.kind = "AnnAssign" then (n.child? "target").toList else n.inRole "targets"

/-- The names that a target stands for: itself, or the names right in it. -/
def targetNames (n : Node) : List Node :=
  (if n.kind = "Tuple" || n.kind = "List" then n.inRole "elts" else [n]).filter Node.isName

/-- The names that an assignment assigns to. -/
def assignedNames (n : Node) : List Node := (targetsOf n).flatMap targetNames

/-- Whether an assignment gives a value. -/
def hasValue (n : Node) : Bool := n.kind == "Assign" || (n.child? "value").isSome

end CodeOutline.Python
