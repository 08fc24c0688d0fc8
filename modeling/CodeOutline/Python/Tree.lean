/-
CodeOutline/Python/Tree.lean

Syntax trees of Python sources.

A node has a kind, a range of lines and columns, plain attributes, and children in the order in
which a visitor meets them.  Each child knows its role, that is the field of the parent it belongs
to; the items of a list share one role.  An empty place in a list is a node without a kind.
-/
import CodeOutline.Text.Utf8

namespace CodeOutline.Python

/-- Where a node stands: lines are counted from one, columns in octets from zero.  The end may be
unknown. -/
structure Range where
  line : Int
  column : Int
  endLine : Option Int
  endColumn : Option Int
  deriving DecidableEq, Repr

/-- A value written in the source. -/
inductive Literal where
  | text (s : String)
  | octets (bs : Text.Utf8.Octets)
  | int (digits : String)
  | float (digits : String)
  | imaginary (digits : String)
  | bool (b : Bool)
  | none
  | ellipsis
  deriving DecidableEq, Repr

/-- A plain attribute of a node. -/
inductive Attribute where
  | text (s : String)
  | number (n : Int)
  | literal (l : Literal)
  deriving DecidableEq, Repr

/-- A node of a syntax tree. -/
structure Node where
  role : String
  kind : String
  range : Option Range
  attributes : List (String × Attribute)
  children : List Node
  deriving Repr, Inhabited

namespace Node

/-- An empty place. -/
def gap (role : String) : Node := ⟨role, "", none, [], []⟩

/-- Whether a node is an empty place. -/
def isGap (n : Node) : Bool := n.kind == ""

/-- An attribute of a node. -/
def attribute? (n : Node) (name : String) : Option Attribute :=
  (n.attributes.find? (fun a => a.1 == name)).map Prod.snd

/-- An attribute that is a text. -/
def text? (n : Node) (name : String) : Option String :=
  match n.attribute? name with
  | some (.text s) => some s
  | _ => none

/-- An attribute that is a text, the empty one if it is not there. -/
def text (n : Node) (name : String) : String := (n.text? name).getD ""

/-- An attribute that is a number. -/
def number? (n : Node) (name : String) : Option Int :=
  match n.attribute? name with
  | some (.number k) => some k
  | _ => none

/-- The places with a role, empty ones included. -/
def places (n : Node) (role : String) : List Node := n.children.filter (fun c => c.role == role)

/-- The children with a role. -/
def inRole (n : Node) (role : String) : List Node :=
  n.children.filter (fun c => c.role == role && !c.isGap)

/-- The first child with a role. -/
def child? (n : Node) (role : String) : Option Node := (n.inRole role).head?

/-- The statements of a body. -/
def body (n : Node) : List Node := n.inRole "body"

/-! ### Kinds of nodes -/

/-- Whether a node defines a class. -/
def isClass (n : Node) : Bool := n.kind == "ClassDef"

/-- Whether a node defines a function. -/
def isFunction (n : Node) : Bool := n.kind == "FunctionDef" || n.kind == "AsyncFunctionDef"

/-- Whether a node is a name. -/
def isName (n : Node) : Bool := n.kind == "Name"

/-- Whether a node assigns to names. -/
def isAssignment (n : Node) : Bool := n.kind == "Assign" || n.kind == "AnnAssign"

/-- Whether a docstring can stand in a node. -/
def isDocumented (n : Node) : Bool := n.kind == "Module" || n.isClass || n.isFunction

/-! ### Whole trees -/

mutual

/-- The nodes of a tree, every node before its descendants. -/
def preorder : Node → List Node
  | ⟨role, kind, range, attributes, cs⟩ =>
    ⟨role, kind, range, attributes, cs⟩ :: preorders cs

/-- The nodes of some trees. -/
def preorders : List Node → List Node
  | [] => []
  | n :: ns => preorder n ++ preorders ns

end

theorem preorder_eq (n : Node) : n.preorder = n :: preorders n.children := by
  cases n
  rfl

end Node

end CodeOutline.Python
