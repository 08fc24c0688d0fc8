/-
CodeOutline/Entity/Documentation.lean

Documentation: a description and tags.

A tag has a name, a text, and attributes such as the name of the parameter it is about.
-/
import CodeOutline.Entity.Scope

namespace CodeOutline

/-! ### Tags -/

/-- A named part of a piece of documentation. -/
structure DocumentationTag where
  name : Value
  value : Value
  attributes : Metadata
  deriving Repr

/-- The empty text in place of nothing. -/
def Value.orEmpty : Value → Value
  | .scalar .null => ""
  | v => v

namespace DocumentationTag

/-- The argument places of a tag. -/
structure Draft where
  name : Value := .null
  value : Value := ""
  attributes : Slot (List (Scalar × Value)) := .ok []

/-- The tag of a draft. -/
def Draft.build (d : Draft) : Except ArgumentError DocumentationTag := do
  require (d.name.isBlank = false) (.blank "name")
  return ⟨d.name, d.value.orEmpty, Metadata.ofEntries (← d.attributes)⟩

/-- A tag from texts. -/
def make (name value : String) (attributes : List (String × String)) :
    Except ArgumentError DocumentationTag :=
  Draft.build
    { name := name, value := value,
      attributes := .ok (attributes.map (fun a => (.text a.1, .text a.2))) }

/-- The setters of a tag. -/
inductive Call where
  | name (v : Value)
  | value (v : Value)
  | addAttribute (key : Scalar) (value : Value)

/-- A draft after a setter. -/
def Draft.apply (d : Draft) : Call → Draft
  | .name v => { d with name := v }
  | .value v => { d with value := v }
  | .addAttribute k v => { d with attributes := d.attributes.map (Assoc.insert Scalar.same k v) }

/-- Whether two tags are equal. -/
def same (a b : DocumentationTag) : Bool :=
  a.name.same b.name && a.value.same b.value && a.attributes.same b.attributes

/-- The key of a tag. -/
def key (t : DocumentationTag) : Key := .row [t.name.key, t.value.key, t.attributes.key]

/-- A tag in JSON. -/
def toJson (t : DocumentationTag) : Except Unordered Json := do
  return .obj [("name", ← t.name.toJson), ("value", ← t.value.toJson),
    ("attributes", ← t.attributes.toJson)]

end DocumentationTag

/-! ### Documentation -/

/-- A piece of documentation. -/
structure Documentation where
  format : DocumentationFormat
  description : Value
  position : Option Position
  tags : List DocumentationTag
  metadata : Metadata
  deriving Repr

namespace Documentation

/-- The argument places of a piece of documentation. -/
structure Draft where
  format : Slot DocumentationFormat := .error (.null "format")
  description : Value := ""
  position : Slot (Option Position) := .ok none
  tags : Slot (List (Slot DocumentationTag)) := .ok []
  metadata : Slot (List (Scalar × Value)) := .ok []

/-- The documentation of a draft. -/
def Draft.build (d : Draft) : Except ArgumentError Documentation := do
  let format ← d.format
  let position ← d.position
  let tags ← fillAll (← d.tags)
  return ⟨format, d.description.orEmpty, position, tags, Metadata.ofEntries (← d.metadata)⟩

/-- Documentation from parts of the right types. -/
def make (format : DocumentationFormat) (description : String) (position : Option Position)
    (tags : List DocumentationTag) : Except ArgumentError Documentation :=
  Draft.build
    { format := .ok format, description := description, position := .ok position,
      tags := .ok (tags.map .ok) }

/-- The setters of a piece of documentation. -/
inductive Call where
  | description (v : Value)
  | format (s : Slot DocumentationFormat)
  | position (s : Slot (Option Position))
  | addTag (s : Slot DocumentationTag)
  | addTags (ss : List (Slot DocumentationTag))
  | metadata (es : List (Scalar × Value))
  | addMetadata (key : Scalar) (value : Value)

/-- A draft after a setter. -/
def Draft.apply (d : Draft) : Call → Draft
  | .description v => { d with description := v }
  | .format s => { d with format := s }
  | .position s => { d with position := s }
  | .addTag s => { d with tags := d.tags.map (· ++ [s]) }
  | .addTags ss => { d with tags := d.tags.map (· ++ ss) }
  | .metadata es => { d with metadata := .ok es }
  | .addMetadata k v => { d with metadata := d.metadata.map (Assoc.insert Scalar.same k v) }

/-- The tags with a name, in order. -/
def tagsNamed (d : Documentation) (name : Value) : List DocumentationTag :=
  d.tags.filter (fun t => t.name.same name)

/-- Whether two lists of tags are equal one by one. -/
def sameTags : List DocumentationTag → List DocumentationTag → Bool
  | [], [] => true
  | a :: as, b :: bs => a.same b && sameTags as bs
  | _, _ => false

/-- Whether two pieces of documentation are equal. -/
def same (a b : Documentation) : Bool :=
  a.format == b.format && a.description.same b.description && a.position == b.position &&
    sameTags a.tags b.tags && a.metadata.same b.metadata

/-- The key of a piece of documentation. -/
def key (d : Documentation) : Key :=
  .row [.scalar (.word (.documentationFormat d.format)), d.description.key,
    Position.optionKey d.position, .row (d.tags.map DocumentationTag.key), d.metadata.key]

/-- Documentation in JSON. -/
def toJson (d : Documentation) : Except Unordered Json := do
  return .obj [("description", ← d.description.toJson), ("format", .str d.format.code),
    ("position", Position.optionToJson d.position), ("tags", .arr (← d.tags.mapM (·.toJson))),
    ("metadata", ← d.metadata.toJson)]

/-- Documentation in JSON, or null. -/
def optionToJson : Option Documentation → Except Unordered Json
  | none => .ok .null
  | some d => d.toJson

end Documentation

end CodeOutline
