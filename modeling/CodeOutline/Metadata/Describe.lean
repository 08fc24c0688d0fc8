/-
CodeOutline/Metadata/Describe.lean

Values as descriptions show them.

Texts are quoted, and a word is shown with its set, its name and its code.  Values that belong to
an entity are fixed, and what is fixed is told from what can still change: a fixed list is in
round brackets, with a comma after a single item, and a fixed map or set is named as such.  The
members of a set that have an order are shown in it.
-/
import CodeOutline.Metadata.Plain
import CodeOutline.Text.Quoted

namespace CodeOutline

/-- A word as descriptions show it. -/
def Word.describe (w : Word) : String := "<" ++ w.text ++ ": " ++ Text.quoted w.code ++ ">"

/-- A scalar as descriptions show it. -/
def Scalar.describe : Scalar → String
  | .text s => Text.quoted s
  | .word w => w.describe
  | s => s.render

/-! ### Collections -/

/-- Texts with commas between them. -/
def commaList (ss : List String) : String := ", ".intercalate ss

/-- Items that can change, in square brackets. -/
def describeOpenList (items : List String) : String := "[" ++ commaList items ++ "]"

/-- Items that are fixed, in round brackets. -/
def describeFixedList (items : List String) : String :=
  match items with
  | [s] => "(" ++ s ++ ",)"
  | ss => "(" ++ commaList ss ++ ")"

/-- The members of a set, in curly brackets. -/
def describeMembers (ss : List String) : String := "\x7b" ++ commaList ss ++ "\x7d"

/-- A set. -/
def describeSet (fixed : Bool) (members : List Scalar) : String :=
  let name := if fixed then "frozenset" else "set"
  let sorted := members.mergeSort (fun a b => !(b.less? a).getD false)
  match sorted.map Scalar.describe, fixed with
  | [], _ => name ++ "()"
  | ss, true => name ++ "(" ++ describeMembers ss ++ ")"
  | ss, false => describeMembers ss

/-- A map, by its entries. -/
def describeMap (fixed : Bool) (entries : List String) : String :=
  if fixed then "mappingproxy(" ++ describeMembers entries ++ ")" else describeMembers entries

/-! ### Values -/

namespace Value

mutual

/-- A value as descriptions show it. -/
def describe (fixed : Bool) : Value → String
  | .scalar s => s.describe
  | .list items =>
    if fixed then describeFixedList (describeItems fixed items)
    else describeOpenList (describeItems fixed items)
  | .set members => describeSet fixed members
  | .map entries => describeMap fixed (describeEntries fixed entries)

/-- The items of a list as descriptions show them. -/
def describeItems (fixed : Bool) : List Value → List String
  | [] => []
  | v :: vs => describe fixed v :: describeItems fixed vs

/-- The entries of a map as descriptions show them. -/
def describeEntries (fixed : Bool) : List (Scalar × Value) → List String
  | [] => []
  | (k, v) :: es => (k.describe ++ ": " ++ describe fixed v) :: describeEntries fixed es

end

end Value

/-- Metadata as descriptions show it. -/
def Metadata.describe (m : Metadata) : String := (Value.map m.toEntries).describe true

end CodeOutline
