/-
CodeOutline/Json.lean

JSON values.

An object is its members in order.  Integers of any size and decimal numbers are told apart, as
are `2` and `2.0`.
-/
import CodeOutline.Assoc
import CodeOutline.Decimal

namespace CodeOutline

/-- A JSON value. -/
inductive Json where
  | null
  | bool (b : Bool)
  | int (n : Int)
  | decimal (d : Decimal)
  | str (s : String)
  | arr (items : List Json)
  | obj (members : List (String × Json))
  deriving Inhabited, Repr

namespace Json

/-- A member of an object. -/
def get? (j : Json) (name : String) : Option Json :=
  match j with
  | .obj ms => Assoc.find? (· == ·) name ms
  | _ => none

/-- An array of texts. -/
def texts (ss : List String) : Json := .arr (ss.map .str)

/-- A text, or null. -/
def textOrNull : Option String → Json
  | none => .null
  | some s => .str s

end Json

end CodeOutline
