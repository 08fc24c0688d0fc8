/-
CodeOutline/Python/Tree/Reader.lean

Python syntax trees in JSON.

A node is an object: `t` is its kind, `p` is its range and `f` holds pairs of a field and its
value.  A value is a node, an array of nodes and empty places, a text or a number.  The value of a
literal is a pair of two texts, its type and what it says.

Where the parser gave no tree there is an object with its complaint instead.
-/
import CodeOutline.Json
import CodeOutline.Python.Problem
import CodeOutline.Text.Hex

namespace CodeOutline.Python

/-- A number, or nothing. -/
def intOf? : Json → Option Int
  | .int n => some n
  | _ => none

/-- The range that a JSON value stands for. -/
def Range.ofJson? : Json → Option Range
  | .arr [.int line, .int column, endLine, endColumn] =>
    some ⟨line, column, intOf? endLine, intOf? endColumn⟩
  | _ => none

/-- The literal of a type with what it says. -/
def Literal.ofTexts? (type content : String) : Option Literal :=
  match type with
  | "str" => some (.text content)
  | "bytes" => (Text.octetsOfHex? content.toList).map .octets
  | "int" => some (.int content)
  | "float" => some (.float content)
  | "complex" => some (.imaginary content)
  | "bool" => some (.bool (content == "True"))
  | "none" => some .none
  | "ellipsis" => some .ellipsis
  | _ => none

/-- The attribute that the value of a field stands for. -/
def Attribute.ofJson? (isLiteral : Bool) : Json → Option Attribute
  | .str s => some (.text s)
  | .int n => some (.number n)
  | .arr [.str type, .str content] =>
    if isLiteral then (Literal.ofTexts? type content).map .literal else none
  | _ => none

namespace Node

/-- The attribute that a field stands for, if it is one. -/
def attributeOf? (kind : String) : Json → Option (String × Attribute)
  | .arr [.str field, value] =>
    (Attribute.ofJson? (kind == "Constant" && field == "value") value).map (fun a => (field, a))
  | _ => none

/-- The attributes that a JSON value stands for. -/
def attributesOf (kind : String) : Option Json → List (String × Attribute)
  | some (.arr fields) => fields.filterMap (attributeOf? kind)
  | _ => []

mutual

/-- The tree that a JSON value stands for, in a role. -/
def ofJson? (role : String) : Json → Option Node
  | .obj members =>
    match Assoc.find? (· == ·) "t" members with
    | some (.str kind) =>
      some {
        role := role
        kind := kind
        range := (Assoc.find? (· == ·) "p" members).bind Range.ofJson?
        attributes := attributesOf kind (Assoc.find? (· == ·) "f" members)
        children := childrenIn members }
    | _ => none
  | .null => some (gap role)
  | _ => none

/-- The children that the members of an object give. -/
def childrenIn : List (String × Json) → List Node
  | [] => []
  | (name, value) :: members => if name == "f" then childrenOf value else childrenIn members

/-- The children that a JSON value gives. -/
def childrenOf : Json → List Node
  | .arr fields => ofFields fields
  | _ => []

/-- The children that some fields give. -/
def ofFields : List Json → List Node
  | [] => []
  | f :: fs => ofField f ++ ofFields fs

/-- The children that one field gives. -/
def ofField : Json → List Node
  | .arr [.str role, value] => ofValue role value
  | _ => []

/-- The children that the value of a field gives; an empty place that is not in a list is none. -/
def ofValue (role : String) : Json → List Node
  | .arr items => ofItems role items
  | .obj members => (ofJson? role (.obj members)).toList
  | _ => []

/-- The children that the items of a list give. -/
def ofItems (role : String) : List Json → List Node
  | [] => []
  | j :: js => (ofJson? role j).toList ++ ofItems role js

end

end Node

/-- The complaint that a JSON value stands for. -/
def Problem.ofJson? (j : Json) : Option Problem :=
  match j.get? "syntax_error", j.get? "value_error" with
  | some (.arr [line, column, .str message]), _ =>
    some (.misplaced (intOf? line) (intOf? column) message)
  | _, some (.str message) => some (.forbidden message)
  | _, _ => none

/-- What the parser gave: a tree or a complaint. -/
def parserOutcome (j : Json) : Except Problem Node :=
  match Problem.ofJson? j, Node.ofJson? "" j with
  | some p, _ => .error p
  | none, some n => .ok n
  | none, none => .error (.forbidden "no syntax tree")

end CodeOutline.Python
