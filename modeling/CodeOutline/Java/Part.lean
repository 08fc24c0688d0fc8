/-
CodeOutline/Java/Part.lean

Parts of Java declarations: names, types, modifiers, ranges, documentation, references.

Each part is read off the node of a declaration and the source text.  A name or a range that is
needed and not there stops the conversion; other parts that are not there are left out.
-/
import CodeOutline.Identifier
import CodeOutline.Java.Tree
import CodeOutline.Java.TypeName
import CodeOutline.Javadoc
import CodeOutline.Source.Parsed

namespace CodeOutline.Java

/-! ### Text of nodes -/

/-- The text of a node. -/
def textOf (t : LineIndex) (n : Node) : List Char := Text.Utf8.decode (t.slice n.start n.stop)

/-- The text of a node that is there. -/
def textOf? (t : LineIndex) : Option Node → Option (List Char)
  | none => none
  | some n => if n.missing then none else some (textOf t n)

/-- The text of a node without blanks; none for a node that is not there. -/
def dotted (t : LineIndex) (n : Option Node) : List Char :=
  Text.withoutBlanks ((textOf? t n).getD [])

/-- The number of the line on which a node begins. -/
def lineOf (t : LineIndex) (n : Node) : Nat := (t.source.take n.start).count 10 + 1

/-- The name of a declaration. -/
def nameOf (t : LineIndex) (n : Node) : Except Failure String :=
  (needed (Need.name n.kind (lineOf t n)).message
    (.ok ((textOf? t (n.fieldChild? "name")).map String.ofList))).mapError .unmet

/-- The text of a type with single spaces, and the dimensions that stand after a declared name. -/
def typeText (t : LineIndex) (type : Option Node) (declarator : Node) : String :=
  let text := Text.singleSpaced ((textOf? t type).getD [])
  match declarator.fieldChild? "dimensions" with
  | some d => String.ofList (if text.isEmpty then text else text ++ dotted t (some d))
  | none => String.ofList text

/-! ### Modifiers -/

/-- The node of the modifiers of a declaration. -/
def modifiersNode? (n : Node) : Option Node := n.childOfKind? "modifiers"

/-- The modifiers of a declaration. -/
def modifiersOf (n : Node) : List String :=
  match modifiersNode? n with
  | none => []
  | some m => m.children.map Node.kind

/-- How far a type is visible. -/
def typeLevel (modifiers : List String) : ScopeLevel :=
  if modifiers.contains "public" then .global else .package

/-- How far a member is visible. -/
def memberLevel (modifiers : List String) : ScopeLevel :=
  if modifiers.contains "public" then .global
  else if modifiers.contains "private" then .type
  else .package

/-! ### Ranges -/

/-- The first and the last position of a declaration. -/
def spanOf (t : LineIndex) (n : Node) : Except Failure (Position × Position) :=
  (needed (Need.range n.kind (lineOf t n)).message
    (.ok (if n.missing then none else t.span? n.start n.stop))).mapError .unmet

/-- The scope of a declaration. -/
def scopeOf (t : LineIndex) (level : ScopeLevel) (n : Node) (children : List Scope) :
    Except Failure Scope := do
  let (start, stop) ← spanOf t n
  built (Scope.make level start stop children)

/-! ### Documentation -/

/-- The documentation in a comment. -/
def commentDocumentation (t : LineIndex) (n : Node) :
    Except ArgumentError (Option Documentation) :=
  let comment := String.ofList ((textOf? t (some n)).getD [])
  if n.kind = "block_comment" && Javadoc.isJavadoc comment then
    (Javadoc.parse comment (some (t.position n.start))).map some
  else .ok none

/-- The documentation of a declaration: the comment right before it. -/
def documentationOf (t : LineIndex) (l : Located) :
    Except ArgumentError (Option Documentation) :=
  match l.previous with
  | none => .ok none
  | some n => commentDocumentation t n

/-! ### References -/

/-- The reference of a kind to the type that a node names. -/
def typeReference (t : LineIndex) (kind : ReferenceKind) (n : Node) :
    Except ArgumentError Reference :=
  let qualified := eraseArguments ((textOf? t (some n)).getD [])
  Reference.make kind (String.ofList (simpleName qualified)) (t.position n.start)
    [(.text "qualifiedName", String.ofList qualified)]

/-- Whether a node is an annotation. -/
def isAnnotation (n : Node) : Bool := n.kind == "marker_annotation" || n.kind == "annotation"

/-- The references to the annotations of a declaration. -/
def annotationReferences (t : LineIndex) (n : Node) : Except ArgumentError (List Reference) :=
  match modifiersNode? n with
  | none => .ok []
  | some m =>
    (m.children.filter isAnnotation).mapM fun a =>
      Reference.make .use (String.ofList (dotted t (a.fieldChild? "name"))) (t.position a.start)
        [(.text "annotation", .bool true)]

/-! ### Lists in clauses -/

/-- The types in a clause of supertypes. -/
def typeNodes (clause : Option Node) : List Node :=
  match clause with
  | none => []
  | some n =>
    match n.childOfKind? "type_list" with
    | some list => list.namedChildren
    | none => n.namedChildren

/-- The simple names of some types. -/
def typeNames (t : LineIndex) (types : List Node) : List String :=
  types.map (fun n => String.ofList (simpleName ((textOf? t (some n)).getD [])))

/-- The names of parameters or record components. -/
def parameterNames (t : LineIndex) (parameters : Option Node) : Except Failure (List String) :=
  match parameters with
  | none => .ok []
  | some n =>
    let declarators := n.namedChildren.filterMap fun p =>
      if p.kind = "formal_parameter" then some p
      else if p.kind = "spread_parameter" then p.childOfKind? "variable_declarator"
      else none
    declarators.mapM (nameOf t)

/-- Whether a node is a name, with dots or without. -/
def isName (n : Node) : Bool := n.kind == "identifier" || n.kind == "scoped_identifier"

/-- The name of the package a unit belongs to. -/
def packageName (t : LineIndex) (root : Node) : String :=
  match root.childOfKind? "package_declaration" with
  | none => ""
  | some n => String.ofList (dotted t (n.namedChildren.find? isName))

/-- The names a unit imports; a star stands for all names of a package. -/
def importNames (t : LineIndex) (root : Node) : List String :=
  root.children.filterMap fun n =>
    if n.kind = "import_declaration" then
      (n.namedChildren.find? isName).map fun name =>
        String.ofList (dotted t (some name)) ++
          (if (n.childOfKind? "asterisk").isSome then ".*" else "")
    else none

end CodeOutline.Java
