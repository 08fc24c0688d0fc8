/-
CodeOutline/Metadata/Key.lean

Keys under which entities are collected.

A key is what is compared first when entities are put into a collection without repetitions: two
entities are one only if their keys agree and they are equal.  The key of a map lists its entries
in the order of the text of their keys; entries whose keys have the same text stay in the order of
the map.
-/
import CodeOutline.Metadata

namespace CodeOutline

/-- A key: scalars and sets of them, and rows of keys. -/
inductive Key where
  | scalar (s : Scalar)
  | set (members : List Scalar)
  | row (items : List Key)
  deriving Repr, Inhabited

namespace Key

/-- The key of a number. -/
abbrev number (n : Nat) : Key := .scalar (.int n)

mutual

/-- Whether two keys agree. -/
def same : Key → Key → Bool
  | .scalar a, .scalar b => a.same b
  | .set a, .set b => Value.sameMembers a b
  | .row a, .row b => sameItems a b
  | _, _ => false

/-- Whether two rows agree item by item. -/
def sameItems : List Key → List Key → Bool
  | [], [] => true
  | a :: as, b :: bs => same a b && sameItems as bs
  | _, _ => false

end

/-- The row of two keys for each entry, in the order of the text of the first ones. -/
def rowOfEntries (es : List (Scalar × Key)) : Key :=
  let sorted := es.mergeSort (fun a b => !decide (b.1.render < a.1.render))
  .row (sorted.map (fun e => .row [.scalar e.1, e.2]))

end Key

namespace Value

mutual

/-- The key of a value. -/
def key : Value → Key
  | .scalar s => .scalar s
  | .list items => .row (itemKeys items)
  | .set members => .set members
  | .map entries => Key.rowOfEntries (entryKeys entries)

/-- The keys of the items of a list. -/
def itemKeys : List Value → List Key
  | [] => []
  | v :: vs => key v :: itemKeys vs

/-- The entries of a map with the keys of their values. -/
def entryKeys : List (Scalar × Value) → List (Scalar × Key)
  | [] => []
  | (k, v) :: es => (k, key v) :: entryKeys es

end

end Value

/-- The key of metadata. -/
def Metadata.key (m : Metadata) : Key := (Value.map m.toEntries).key

end CodeOutline
