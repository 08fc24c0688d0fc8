/-
CodeOutline/Python/Name.lean

Dotted names inside expressions, names of definitions, and what names say about visibility.

A call and a subscript have the name of what is called or subscripted.  A missing word counts as
`None` inside a longer name; where a name is asked how it starts, it must be there.
-/
import CodeOutline.Failure
import CodeOutline.Python.Tree

namespace CodeOutline.Python

/-- A word as it stands inside a longer text. -/
def wordOrNone (word : Option String) : String := word.getD "None"

mutual

/-- The dotted name of an expression. -/
def dottedName? : Node → Option String
  | ⟨role, kind, range, attributes, cs⟩ =>
    let n : Node := ⟨role, kind, range, attributes, cs⟩
    if kind = "Name" then n.text? "id"
    else if kind = "Attribute" then
      match nameInRole? "value" cs with
      | none => n.text? "attr"
      | some value =>
        if value == "" then n.text? "attr" else some (value ++ "." ++ wordOrNone (n.text? "attr"))
    else if kind = "Call" then nameInRole? "func" cs
    else if kind = "Subscript" then nameInRole? "value" cs
    else none

/-- The dotted name of the first node with a role. -/
def nameInRole? (role : String) : List Node → Option String
  | [] => none
  | n :: ns => if n.role == role then dottedName? n else nameInRole? role ns

end

/-- The text after the last dot of a name. -/
def lastSegment (name : String) : String :=
  String.ofList ((Text.splitOn '.' name.toList).getLastD [])

/-- The text after the last dot of an expression's name; the empty text for none. -/
def lastName (n : Node) : String := lastSegment ((dottedName? n).getD "")

/-- The name that a node has in a field and that tells how far it is visible. -/
def nameIn (field : String) (n : Node) : Except Failure String :=
  match n.text? field with
  | some name => .ok name
  | none => .error (.defect (.emptyPlace "startswith"))

/-! ### Visibility -/

/-- Whether a text starts with another. -/
def hasStart (start s : String) : Bool := start.toList.isPrefixOf s.toList

/-- Whether a text ends with another. -/
def hasEnd (stop s : String) : Bool := stop.toList.isSuffixOf s.toList

/-- How far a name of a module is visible. -/
def typeLevel (name : String) : ScopeLevel := if hasStart "_" name then .package else .global

/-- How far a name of a class is visible. -/
def memberLevel (name : String) : ScopeLevel :=
  if hasStart "__" name then (if hasEnd "__" name then .global else .type)
  else if hasStart "_" name then .package
  else .global

/-- How far a name is visible, in a class or outside any. -/
def levelOf (owner : Option String) (name : String) : ScopeLevel :=
  if owner.isSome then memberLevel name else typeLevel name

/-! ### Decorators -/

/-- The last segments of the names of decorators. -/
def decoratorNames (n : Node) : List String := (n.inRole "decorator_list").map lastName

end CodeOutline.Python
