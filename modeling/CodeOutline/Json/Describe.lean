/-
CodeOutline/Json/Describe.lean

JSON values as messages show them.

Texts are quoted; null and the truth values have names of their own.
-/
import CodeOutline.Json
import CodeOutline.Text.Quoted

namespace CodeOutline.Json

mutual

/-- A value as messages show it. -/
def describe : Json → String
  | .null => "None"
  | .bool b => if b then "True" else "False"
  | .int n => toString n
  | .decimal d => d.render
  | .str s => Text.quoted s
  | .arr items => "[" ++ ", ".intercalate (describeItems items) ++ "]"
  | .obj members => "\x7b" ++ ", ".intercalate (describeMembers members) ++ "\x7d"

/-- The items of an array as messages show them. -/
def describeItems : List Json → List String
  | [] => []
  | j :: js => describe j :: describeItems js

/-- The members of an object as messages show them. -/
def describeMembers : List (String × Json) → List String
  | [] => []
  | (name, j) :: ms => (Text.quoted name ++ ": " ++ describe j) :: describeMembers ms

end

/-- The name of a value's type, as messages give it. -/
def typeName : Json → String
  | .null => "NoneType"
  | .bool _ => "bool"
  | .int _ => "int"
  | .decimal _ => "float"
  | .str _ => "str"
  | .arr _ => "list"
  | .obj _ => "dict"

/-- Whether a value says nothing: null, false, zero, or without parts. -/
def isVoid : Json → Bool
  | .null => true
  | .bool b => !b
  | .int n => n == 0
  | .decimal d => d.same (.ofInt 0)
  | .str s => s == ""
  | .arr items => items.isEmpty
  | .obj members => members.isEmpty

end CodeOutline.Json
