/-
CodeOutline/Entity/Scope.lean

Scopes: the stretch of text a definition takes up, and the scopes inside it.

A scope is built only if its start is not after its end and every child lies within it.  Since
lying within is transitive, every scope built in this way holds all its descendants.
-/
import CodeOutline.Entity.Position
import CodeOutline.Metadata.Key
import CodeOutline.Metadata.Plain

namespace CodeOutline

/-- The key of a position. -/
def Position.key (p : Position) : Key :=
  .row [.number p.line, .number p.column, .number p.offset]

/-- The key of a position, or of none. -/
def Position.optionKey : Option Position → Key
  | none => .scalar .null
  | some p => p.key

/-- A stretch of text with its visibility. -/
structure Scope where
  level : ScopeLevel
  start : Position
  stop : Position
  children : List Scope
  metadata : Metadata
  deriving Repr

namespace Scope

instance : Inhabited Scope := ⟨⟨.other, .origin, .origin, [], []⟩⟩

/-- Whether a scope spans another one. -/
def contains (s t : Scope) : Bool := !t.start.isBefore s.start && !t.stop.isAfter s.stop

theorem contains_iff {s t : Scope} :
    s.contains t = true ↔
      t.start.isBefore s.start = false ∧ s.stop.isBefore t.stop = false := by
  simp [contains, Position.isAfter_eq]

theorem contains_refl (s : Scope) : s.contains s = true := by
  simp [contains_iff, Position.isBefore_irrefl]

theorem contains_trans {s t u : Scope} (h : s.contains t = true) (h' : t.contains u = true) :
    s.contains u = true := by
  rw [contains_iff] at *
  exact ⟨Position.not_isBefore_trans h'.1 h.1, Position.not_isBefore_trans h.2 h'.2⟩

/-! ### Building -/

/-- The argument places of a scope. -/
structure Draft where
  level : Slot ScopeLevel := .error (.null "level")
  start : Slot Position := .error (.null "start")
  stop : Slot Position := .error (.null "end")
  children : Slot (List (Slot Scope)) := .ok []
  metadata : Slot (List (Scalar × Value)) := .ok []

/-- The scope of a draft. -/
def Draft.build (d : Draft) : Except ArgumentError Scope := do
  let level ← d.level
  let start ← d.start
  let stop ← d.stop
  require (start.isAfter stop = false) .spanReversed
  let children ← fillAll (← d.children)
  let s : Scope := ⟨level, start, stop, children, []⟩
  require (children.all s.contains = true) .childOutside
  return { s with metadata := Metadata.ofEntries (← d.metadata) }

/-- A scope from parts of the right types. -/
def make (level : ScopeLevel) (start stop : Position) (children : List Scope) :
    Except ArgumentError Scope :=
  Draft.build
    { level := .ok level, start := .ok start, stop := .ok stop, children := .ok (children.map .ok) }

/-- The setters of a scope. -/
inductive Call where
  | level (s : Slot ScopeLevel)
  | start (s : Slot Position)
  | stop (s : Slot Position)
  | addChild (s : Slot Scope)
  | addChildren (ss : List (Slot Scope))
  | metadata (es : List (Scalar × Value))
  | addMetadata (key : Scalar) (value : Value)

/-- A draft after a setter. -/
def Draft.apply (d : Draft) : Call → Draft
  | .level s => { d with level := s }
  | .start s => { d with start := s }
  | .stop s => { d with stop := s }
  | .addChild s => { d with children := d.children.map (· ++ [s]) }
  | .addChildren ss => { d with children := d.children.map (· ++ ss) }
  | .metadata es => { d with metadata := .ok es }
  | .addMetadata k v => { d with metadata := d.metadata.map (Assoc.insert Scalar.same k v) }

/-! ### Equality and keys -/

mutual

/-- Whether two scopes are equal. -/
def same : Scope → Scope → Bool
  | ⟨l, b, e, cs, m⟩, ⟨l', b', e', cs', m'⟩ =>
    l == l' && b == b' && e == e' && sameAll cs cs' && Metadata.same m m'

/-- Whether two lists of scopes are equal one by one. -/
def sameAll : List Scope → List Scope → Bool
  | [], [] => true
  | s :: ss, t :: ts => same s t && sameAll ss ts
  | _, _ => false

end

mutual

/-- The key of a scope. -/
def key : Scope → Key
  | ⟨l, b, e, cs, m⟩ =>
    .row [.scalar (.word (.scopeLevel l)), b.key, e.key, .row (keys cs),
      Metadata.key m]

/-- The keys of some scopes. -/
def keys : List Scope → List Key
  | [] => []
  | s :: ss => key s :: keys ss

end

/-! ### Writing out -/

mutual

/-- A scope in JSON. -/
def toJson : Scope → Except Unordered Json
  | ⟨l, b, e, cs, m⟩ => do
    let children ← allToJson cs
    let metadata ← Metadata.toJson m
    return .obj [("level", .str l.code), ("start", b.toJson), ("end", e.toJson),
      ("children", .arr children), ("metadata", metadata)]

/-- Scopes in JSON. -/
def allToJson : List Scope → Except Unordered (List Json)
  | [] => .ok []
  | s :: ss => do
    let j ← toJson s
    let js ← allToJson ss
    return j :: js

end

end Scope

end CodeOutline
