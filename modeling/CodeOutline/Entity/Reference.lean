/-
CodeOutline/Entity/Reference.lean

References: how a definition points at another named thing.

The target is given by name only; nothing is looked up.
-/
import CodeOutline.Entity.Scope

namespace CodeOutline

/-- A pointer from a definition to a name. -/
structure Reference where
  kind : ReferenceKind
  targetName : Value
  position : Option Position
  metadata : Metadata
  deriving Repr

namespace Reference

/-- The argument places of a reference. -/
structure Draft where
  kind : Slot ReferenceKind := .error (.null "kind")
  targetName : Value := .null
  position : Slot (Option Position) := .ok none
  metadata : Slot (List (Scalar × Value)) := .ok []

/-- The reference of a draft. -/
def Draft.build (d : Draft) : Except ArgumentError Reference := do
  let kind ← d.kind
  require (d.targetName.isBlank = false) (.blank "target_name")
  let position ← d.position
  return ⟨kind, d.targetName, position, Metadata.ofEntries (← d.metadata)⟩

/-- A reference from parts of the right types. -/
def make (kind : ReferenceKind) (targetName : String) (position : Position)
    (metadata : List (Scalar × Value)) : Except ArgumentError Reference :=
  Draft.build
    { kind := .ok kind, targetName := targetName, position := .ok (some position),
      metadata := .ok metadata }

/-- The setters of a reference. -/
inductive Call where
  | kind (s : Slot ReferenceKind)
  | targetName (v : Value)
  | position (s : Slot (Option Position))
  | metadata (es : List (Scalar × Value))
  | addMetadata (key : Scalar) (value : Value)

/-- A draft after a setter. -/
def Draft.apply (d : Draft) : Call → Draft
  | .kind s => { d with kind := s }
  | .targetName v => { d with targetName := v }
  | .position s => { d with position := s }
  | .metadata es => { d with metadata := .ok es }
  | .addMetadata k v => { d with metadata := d.metadata.map (Assoc.insert Scalar.same k v) }

/-- Whether two references are equal. -/
def same (a b : Reference) : Bool :=
  a.kind == b.kind && a.targetName.same b.targetName && a.position == b.position &&
    a.metadata.same b.metadata

/-- The key of a reference. -/
def key (r : Reference) : Key :=
  .row [.scalar (.word (.referenceKind r.kind)), r.targetName.key, Position.optionKey r.position,
    r.metadata.key]

/-- A reference in JSON. -/
def toJson (r : Reference) : Except Unordered Json := do
  return .obj [("kind", .str r.kind.code), ("target_name", ← r.targetName.toJson),
    ("position", Position.optionToJson r.position), ("metadata", ← r.metadata.toJson)]

end Reference

end CodeOutline
