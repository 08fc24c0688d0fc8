/-
CodeOutline/Java/Tree/Reader.lean

Java syntax trees in JSON.

A node is an object: `t` is its kind, `s` and `e` are the ends of its range, `f` is the field it
fills and `c` holds its children.  The members `a`, `m` and `x` are there for mere tokens, missing
nodes and flagged nodes.
-/
import CodeOutline.Java.Tree
import CodeOutline.Json

namespace CodeOutline.Java.Node

/-- A member that is a text. -/
def textMember? (members : List (String × Json)) (name : String) : Option String :=
  match Assoc.find? (· == ·) name members with
  | some (.str s) => some s
  | _ => none

/-- A member that is an offset, zero if it is not there. -/
def offsetMember (members : List (String × Json)) (name : String) : Nat :=
  match Assoc.find? (· == ·) name members with
  | some (.int n) => n.toNat
  | _ => 0

/-- Whether a member is there. -/
def hasMember (members : List (String × Json)) (name : String) : Bool :=
  (Assoc.find? (· == ·) name members).isSome

mutual

/-- The tree that a JSON value stands for. -/
def ofJson? : Json → Option Node
  | .obj members => do
    let kind ← textMember? members "t"
    let children ← childrenIn? members
    return {
      kind := kind
      start := offsetMember members "s"
      stop := offsetMember members "e"
      field := textMember? members "f"
      named := !hasMember members "a"
      missing := hasMember members "m"
      flagged := hasMember members "x"
      children := children }
  | _ => none

/-- The children that the members of an object give. -/
def childrenIn? : List (String × Json) → Option (List Node)
  | [] => some []
  | (name, value) :: members =>
    if name == "c" then allOfJson? value else childrenIn? members

/-- The trees that a JSON array stands for. -/
def allOfJson? : Json → Option (List Node)
  | .arr items => ofItems? items
  | _ => none

/-- The trees that some JSON values stand for. -/
def ofItems? : List Json → Option (List Node)
  | [] => some []
  | j :: js => do
    let n ← ofJson? j
    let ns ← ofItems? js
    return n :: ns

end

end CodeOutline.Java.Node
