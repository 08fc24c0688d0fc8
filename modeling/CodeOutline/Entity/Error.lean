/-
CodeOutline/Entity/Error.lean

What can be wrong with the arguments an entity is built from.

A cause names the argument it is about, or what is wrong with the call itself.  `Slot` is an
argument place: it holds a value of the right type, or the complaint about what was put there,
which is raised only when the place is looked at.  So the order in which an entity looks at its
places decides which of several complaints is heard.
-/

namespace CodeOutline

/-- Why an entity cannot be built. -/
inductive ArgumentError where
  | null (field : String)
  /-- Nothing, or a text of blanks only. -/
  | blank (field : String)
  | wrongType (field expected actual : String)
  | notInteger (field : String)
  | notMapping (field : String)
  | lineNotPositive
  | columnNotPositive
  | offsetNegative
  | spanReversed
  | childOutside
  /-- A value that has no elements stands where elements are expected. -/
  | notIterable (actual : String)
  /-- Arguments of an entity that have no default are missing. -/
  | missing (entity : String) (names : List String)
  /-- An argument that the entity does not have. -/
  | unexpected (entity name : String)
  /-- A number is to be added to a value that is none. -/
  | notAddable (actual : String)
  /-- A call with more arguments than it takes; those with a default need not be there. -/
  | surplus (call : String) (least most given : Nat)
  /-- A value that has parts of its own stands where a key is expected. -/
  | notAKey (actual : String)
  /-- The element with a number should be a key with its value and has no elements. -/
  | notAPair (index : Nat)
  /-- The element with a number should be a key with its value and has another length. -/
  | notTwoLong (index length : Nat)
  /-- A value is asked for a part that its type does not have. -/
  | noSuchPart (actual name : String)
  /-- Values of two types are compared by a sign, and have no order. -/
  | unordered (sign left right : String)
  deriving DecidableEq, Repr

namespace ArgumentError

/-- Names in quotes, the last one set off by a word. -/
def listNames : List String → String
  | [] => ""
  | [a] => s!"'{a}'"
  | [a, b] => s!"'{a}' and '{b}'"
  | a :: b :: rest =>
    let all := a :: b :: rest
    let last := all.getLastD ""
    ", ".intercalate (all.dropLast.map (fun n => s!"'{n}'")) ++ s!", and '{last}'"

/-- The wording of an error. -/
def message : ArgumentError → String
  | .null field => s!"{field} cannot be null"
  | .blank field => s!"{field} cannot be null or empty"
  | .wrongType field expected actual => s!"{field} must be a {expected}, got {actual}"
  | .notInteger field => s!"{field} must be an integer"
  | .notMapping field => s!"{field} must be a mapping"
  | .lineNotPositive => "Line number must be positive"
  | .columnNotPositive => "Column number must be positive"
  | .offsetNegative => "Offset must be non-negative"
  | .spanReversed => "Scope start cannot be after its end"
  | .childOutside => "Child scope must lie within its parent scope"
  | .notIterable actual => s!"'{actual}' object is not iterable"
  | .missing entity names =>
    let s := if names.length = 1 then "" else "s"
    s!"{entity} missing {names.length} required positional argument{s}: {listNames names}"
  | .unexpected entity name => s!"{entity} got an unexpected keyword argument '{name}'"
  | .notAddable actual =>
    if actual == "str" || actual == "list" then
      s!"can only concatenate {actual} (not \"int\") to {actual}"
    else s!"unsupported operand type(s) for +: '{actual}' and 'int'"
  | .surplus call least most given =>
    let count := if least = most then s!"{most}" else s!"from {least} to {most}"
    let s := if most = 1 then "" else "s"
    s!"{call} takes {count} positional argument{s} but {given} were given"
  | .notAKey actual => s!"unhashable type: '{actual}'"
  | .notAPair index => s!"cannot convert dictionary update sequence element #{index} to a sequence"
  | .notTwoLong index length =>
    s!"dictionary update sequence element #{index} has length {length}; 2 is required"
  | .noSuchPart actual name => s!"'{actual}' object has no attribute '{name}'"
  | .unordered sign left right =>
    s!"'{sign}' not supported between instances of '{left}' and '{right}'"

/-- The argument an error is about. -/
def field? : ArgumentError → Option String
  | .null field => some field
  | .blank field => some field
  | .wrongType field _ _ => some field
  | .notInteger field => some field
  | .notMapping field => some field
  | .lineNotPositive => some "line"
  | .columnNotPositive => some "column"
  | .offsetNegative => some "offset"
  | .spanReversed => some "start"
  | .childOutside => some "children"
  | _ => none

/-- What is wrong with a call that takes arguments with the given names and has got another number
of them.  What the call is made on counts as an argument too. -/
def ofCount (call : String) (names : List String) (given : Nat) : ArgumentError :=
  if given < names.length then .missing call (names.drop given)
  else .surplus call (names.length + 1) (names.length + 1) (given + 1)

/-- The categories of errors. -/
inductive Category where
  /-- A place refuses the value it was given. -/
  | refused
  /-- The number, the names or the types of the arguments do not fit what is done with them. -/
  | misuse
  /-- A value of the right type has the wrong form. -/
  | malformed
  /-- A part is asked for that is not there. -/
  | absent
  deriving DecidableEq, Repr

/-- The category of an error. -/
def category : ArgumentError → Category
  | .notIterable _ | .missing _ _ | .unexpected _ _ | .notAddable _ => .misuse
  | .surplus _ _ _ _ | .notAKey _ | .notAPair _ | .unordered _ _ _ => .misuse
  | .notTwoLong _ _ => .malformed
  | .noSuchPart _ _ => .absent
  | _ => .refused

end ArgumentError

/-- An argument place. -/
abbrev Slot (α : Type) := Except ArgumentError α

/-- The values of some places, looked at in order. -/
def fillAll {α : Type} : List (Slot α) → Slot (List α)
  | [] => .ok []
  | s :: ss => do
    let a ← s
    let as ← fillAll ss
    return a :: as

@[simp] theorem fillAll_map_ok {α : Type} (as : List α) :
    fillAll (as.map Except.ok) = .ok as := by
  induction as with
  | nil => rfl
  | cons a as ih => simp [fillAll, ih, bind, Except.bind, pure, Except.pure]

/-- Checks a condition. -/
def require (p : Prop) [Decidable p] (e : ArgumentError) : Except ArgumentError Unit :=
  if p then .ok () else .error e

@[simp] theorem require_eq_ok_iff {p : Prop} [Decidable p] {e : ArgumentError} :
    require p e = .ok () ↔ p := by
  unfold require
  split <;> simp_all

end CodeOutline
