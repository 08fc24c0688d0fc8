/-
CodeOutline/Metadata/Plain.lean

Metadata in JSON.

Maps become objects with text keys, lists arrays, sets sorted arrays, words their codes.  Sorting
is the one step that can fail: a set that mixes numbers and texts, or holds more than one member
and nothing among them, has no order.
-/
import CodeOutline.Metadata

namespace CodeOutline

/-- Two members of a set that cannot be put in order, by the names of their types. -/
structure Unordered where
  later : String
  earlier : String
  deriving DecidableEq, Repr

/-- The wording of the failure. -/
def Unordered.message (u : Unordered) : String :=
  s!"'<' not supported between instances of '{u.later}' and '{u.earlier}'"

namespace Scalar

/-- A scalar as it is sorted: words count as their codes. -/
def plain : Scalar → Scalar
  | .word w => .text w.code
  | s => s

/-- Whether a scalar comes before another; none where the two have no order. -/
def less? (a b : Scalar) : Option Bool :=
  match a, b with
  | .text s, .text t => some (decide (s < t))
  | _, _ =>
    match a.number?, b.number? with
    | some m, some n => some (m.less n)
    | _, _ => none

/-- Whether two scalars can be put in order. -/
def ordered (a b : Scalar) : Bool := (a.less? b).isSome

/-- The first two neighbours that cannot be put in order. -/
def firstUnordered? : List Scalar → Option Unordered
  | a :: b :: ss =>
    if a.ordered b then firstUnordered? (b :: ss) else some ⟨b.typeName, a.typeName⟩
  | _ => none

/-- The members of a set in ascending order. -/
def sorted (ss : List Scalar) : Except Unordered (List Scalar) :=
  let plain := ss.map Scalar.plain
  match firstUnordered? plain with
  | some u => .error u
  | none => .ok (plain.mergeSort (fun a b => !(b.less? a).getD false))

end Scalar

namespace Value

mutual

/-- A value in JSON. -/
def toJson : Value → Except Unordered Json
  | .scalar s => .ok s.toJson
  | .list items => (itemsToJson items).map .arr
  | .set members => (Scalar.sorted members).map (fun ss => .arr (ss.map Scalar.toJson))
  | .map entries => (entriesToJson entries []).map .obj

/-- The items of a list in JSON. -/
def itemsToJson : List Value → Except Unordered (List Json)
  | [] => .ok []
  | v :: vs => do
    let j ← toJson v
    let js ← itemsToJson vs
    return j :: js

/-- The entries of a map in JSON, written after those that are done. -/
def entriesToJson : List (Scalar × Value) → List (String × Json) →
    Except Unordered (List (String × Json))
  | [], done => .ok done
  | (k, v) :: es, done => do
    let j ← toJson v
    entriesToJson es (Assoc.insert (· == ·) k.render j done)

end

end Value

/-- Metadata in JSON. -/
def Metadata.toJson (m : Metadata) : Except Unordered Json := (Value.map m.toEntries).toJson

end CodeOutline
