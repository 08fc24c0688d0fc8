/-
CodeOutline/Entity.lean

Entities of any type.

Entities of two types are never equal.  A collection keeps an entity unless it holds one already
that has the same key and is equal to it; `countDistinct` counts what is kept.  The parts of an
entity that may be values of any type must be scalars for that.  A `Roster` numbers entities.
-/
import CodeOutline.Entity.CodeUnit

namespace CodeOutline

/-- The types of entities. -/
inductive EntityType where
  | position
  | scope
  | reference
  | tag
  | documentation
  | definition
  | unit
  deriving DecidableEq, Repr

namespace EntityType

/-- The name of a type. -/
def name : EntityType → String
  | .position => "Position"
  | .scope => "Scope"
  | .reference => "Reference"
  | .tag => "DocumentationTag"
  | .documentation => "Documentation"
  | .definition => "Definition"
  | .unit => "CodeUnit"

/-- The name of the drafts of a type. -/
def draftName (t : EntityType) : String := t.name ++ "Builder"

/-- All types. -/
def all : List EntityType :=
  [.position, .scope, .reference, .tag, .documentation, .definition, .unit]

/-- The type with a name. -/
def ofName? (name : String) : Option EntityType := all.find? (fun t => t.name == name)

end EntityType

/-- An entity. -/
inductive Entity where
  | position (p : Position)
  | scope (s : Scope)
  | reference (r : Reference)
  | tag (t : DocumentationTag)
  | documentation (d : Documentation)
  | definition (d : Definition)
  | unit (u : CodeUnit)
  deriving Repr

namespace Entity

/-- The type of an entity. -/
def type : Entity → EntityType
  | .position _ => .position
  | .scope _ => .scope
  | .reference _ => .reference
  | .tag _ => .tag
  | .documentation _ => .documentation
  | .definition _ => .definition
  | .unit _ => .unit

/-- Whether two entities are equal. -/
def same : Entity → Entity → Bool
  | .position a, .position b => a == b
  | .scope a, .scope b => a.same b
  | .reference a, .reference b => a.same b
  | .tag a, .tag b => a.same b
  | .documentation a, .documentation b => a.same b
  | .definition a, .definition b => a.same b
  | .unit a, .unit b => a.same b
  | _, _ => false

theorem type_eq_of_same {a b : Entity} (h : a.same b = true) : a.type = b.type := by
  cases a <;> cases b <;> simp_all [same, type]

/-- The key of an entity. -/
def key : Entity → Key
  | .position p => p.key
  | .scope s => s.key
  | .reference r => r.key
  | .tag t => t.key
  | .documentation d => d.key
  | .definition d => d.key
  | .unit u => u.key

/-- Whether a collection takes two entities for one. -/
def collides (a b : Entity) : Bool := a.key.same b.key && a.same b

/-- The entities a collection keeps when they are added one after the other. -/
def distinct (es : List Entity) : List Entity :=
  es.foldl (fun kept e => if kept.any (fun k => k.collides e) then kept else kept ++ [e]) []

/-- The parts of an entity that may be values of any type and belong to its key, in order. -/
def openParts : Entity → List Value
  | .reference r => [r.targetName]
  | .tag t => [t.name, t.value]
  | .documentation d => d.description :: d.tags.flatMap (fun t => [t.name, t.value])
  | .definition d => [d.id]
  | .unit u => [u.id]
  | .position _ | .scope _ => []

/-- Checks that a collection can hold an entity. -/
def checkKey (e : Entity) : Except ArgumentError Unit :=
  match e.openParts.find? (fun v => !v.isScalar) with
  | none => .ok ()
  | some v => .error (.notAKey v.typeName)

/-- The number of entities a collection keeps. -/
def countDistinct (es : List Entity) : Except ArgumentError Nat := do
  es.forM checkKey
  return (distinct es).length

/-- An entity in JSON, with ids or without. -/
def toJson (withIds : Bool) : Entity → Except Unordered Json
  | .position p => .ok p.toJson
  | .scope s => s.toJson
  | .reference r => r.toJson
  | .tag t => t.toJson
  | .documentation d => d.toJson
  | .definition d => d.toJson withIds
  | .unit u => u.toJson withIds

end Entity

/-! ### Numbers -/

/-- Entities in the order in which they were first met, none of them equal to another. -/
abbrev Roster := List Entity

namespace Roster

/-- The number of an entity: the place of its equal, or the next one. -/
def number (r : Roster) (e : Entity) : Nat := r.findIdx (fun k => k.same e)

/-- The roster with an entity on it. -/
def enter (r : Roster) (e : Entity) : Roster := if r.any (fun k => k.same e) then r else r ++ [e]

end Roster

end CodeOutline
