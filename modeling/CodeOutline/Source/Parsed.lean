/-
CodeOutline/Source/Parsed.lean

What a parser made of a source text.

The parser is successful if it gave a tree and found no problem.  A text without a file name is
called `unknown`.
-/
import CodeOutline.Entity.CodeUnit
import CodeOutline.Failure
import CodeOutline.Source.LineIndex

namespace CodeOutline

open Text.Utf8 (Octets)

/-- The result of a parser whose trees are of the given type. -/
structure Parsed (τ : Type) where
  path : Option Path
  source : Octets
  tree : Option τ
  problems : List String

namespace Parsed

variable {τ : Type}

/-- The tree of a successful parse. -/
def tree? (p : Parsed τ) : Option τ := if p.problems.isEmpty then p.tree else none

/-- Whether there is a tree and no problem. -/
def successful (p : Parsed τ) : Bool := p.tree?.isSome

/-- The name of the unit: that of its file. -/
def unitName (p : Parsed τ) : String :=
  match p.path with
  | none => "unknown"
  | some path => if path.name == "" then "unknown" else path.name

theorem unitName_ne_empty (p : Parsed τ) : p.unitName ≠ "" := by
  unfold unitName
  split
  · decide
  · split
    · decide
    · next h => simpa using h

/-- The tree of a successful parse; a parse that is absent or not successful has none. -/
def requireTree (p : Option (Parsed τ)) : Except AnalysisError (Parsed τ × τ) :=
  match p with
  | none => .error (.argument (.null "parsed"))
  | some p =>
    match p.tree? with
    | none => .error (.unparsed p.unitName p.problems)
    | some tree => .ok (p, tree)

end Parsed

/-! ### Outlines -/

/-- What is found out about a unit, without ids. -/
structure Outline where
  name : String
  type : UnitType
  definitions : List Definition.Content
  documentation : Option Documentation
  metadata : List (Scalar × Value)

/-- Names for entities that have none: the unit takes the first, its definitions the others. -/
abbrev IdSource := Nat → String

namespace Outline

/-- Definitions with the names from a place on. -/
def number (ids : IdSource) (next : Nat) : List Definition.Content → List Definition
  | [] => []
  | c :: cs => ⟨c, ids next⟩ :: number ids (next + 1) cs

/-- The unit of an outline. -/
def toUnit (ids : IdSource) (o : Outline) : Except ArgumentError CodeUnit :=
  CodeUnit.Draft.build (ids 0)
    { name := o.name, type := .ok o.type,
      definitions := .ok ((number ids 1 o.definitions).map .ok),
      documentation := .ok o.documentation, metadata := .ok o.metadata }

@[simp] theorem map_toContent_number (ids : IdSource) (next : Nat)
    (cs : List Definition.Content) :
    (number ids next cs).map Definition.toContent = cs := by
  induction cs generalizing next with
  | nil => rfl
  | cons c cs ih => simp [number, ih]

end Outline

end CodeOutline
