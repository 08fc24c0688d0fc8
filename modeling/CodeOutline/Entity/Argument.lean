/-
CodeOutline/Entity/Argument.lean

Arguments of any type, and what the places of entities expect of them.

An argument is a scalar, an entity, a draft of one, or a list, set or map of arguments.  Each place
of an entity says what it expects; an argument of another type becomes a complaint in that place.
No place expects a draft, so of a draft only the type is known.

Where a value is expected, a token stands for an entity or a draft.  Entities have one number if
they are equal, and drafts if they are one and the same.
-/
import CodeOutline.Entity.Describe

namespace CodeOutline

/-- An argument of any type. -/
inductive Argument where
  | scalar (s : Scalar)
  | entity (e : Entity) (number : Nat)
  | draft (t : EntityType) (number : Nat)
  | list (items : List Argument)
  | set (members : List Argument)
  | map (entries : List (Argument × Argument))
  deriving Repr

namespace Argument

/-- The argument that stands for nothing. -/
abbrev null : Argument := .scalar .null

/-- The name of an argument's type, as messages give it. -/
def typeName : Argument → String
  | .scalar s => s.typeName
  | .entity e _ => e.type.name
  | .draft t _ => t.draftName
  | .list _ => "list"
  | .set _ => "set"
  | .map _ => "dict"

/-! ### Arguments as values -/

/-- The token that stands for a draft with a number. -/
def draftToken (t : EntityType) (number : Nat) : Token :=
  ⟨t.draftName, number, t.draftName, .str t.draftName⟩

/-- The scalar that stands for an argument which is no collection. -/
def scalar? : Argument → Option Scalar
  | .scalar s => some s
  | .entity e number => some (.token (e.token number))
  | .draft t number => some (.token (draftToken t number))
  | _ => none

mutual

/-- The argument as a value. -/
def toValue : Argument → Value
  | .scalar s => .scalar s
  | .entity e number => .scalar (.token (e.token number))
  | .draft t number => .scalar (.token (draftToken t number))
  | .list items => .list (toValues items)
  | .set members => .ofMembers (members.filterMap scalar?)
  | .map entries => .ofEntries (toEntries entries)

/-- Arguments as values. -/
def toValues : List Argument → List Value
  | [] => []
  | a :: as => toValue a :: toValues as

/-- Entries of arguments as those of a map.  No collection is a key. -/
def toEntries : List (Argument × Argument) → List (Scalar × Value)
  | [] => []
  | (k, a) :: es =>
    match scalar? k with
    | some s => (s, toValue a) :: toEntries es
    | none => toEntries es

end

/-- The key that an argument is. -/
def key : Argument → Except ArgumentError Scalar
  | .scalar s => .ok s
  | .entity e number => do
    e.checkKey
    return .token (e.token number)
  | .draft t number => .ok (.token (draftToken t number))
  | a => .error (.notAKey a.typeName)

/-- The elements of an argument: the items of a list, the members of a set, the keys of a map, the
characters of a text. -/
def elements : Argument → Slot (List Argument)
  | .list items => .ok items
  | .set members => .ok members
  | .map entries => .ok (entries.map Prod.fst)
  | .scalar (.text s) => .ok (s.toList.map (fun c => .scalar (.text (String.ofList [c]))))
  | a => .error (.notIterable a.typeName)

/-! ### What a place expects -/

/-- An argument of a certain type. -/
def expect {α : Type} (pick : Argument → Option α) (expected field : String) (a : Argument) :
    Slot α :=
  match a with
  | .scalar .null => .error (.null field)
  | a =>
    match pick a with
    | some x => .ok x
    | none => .error (.wrongType field expected a.typeName)

/-- An argument of a certain type, or nothing. -/
def expectOption {α : Type} (pick : Argument → Option α) (expected field : String)
    (a : Argument) : Slot (Option α) :=
  match a with
  | .scalar .null => .ok none
  | a => (expect pick expected field a).map some

/-- Elements of a certain type, or nothing for none. -/
def expectElements {α : Type} (pick : Argument → Option α) (expected field : String)
    (a : Argument) : Slot (List (Slot α)) :=
  match a with
  | .scalar .null => .ok []
  | a => a.elements.map (fun items => items.map (expect pick expected (field ++ " element")))

/-- A map, or nothing for an empty one. -/
def expectMapping (field : String) : Argument → Slot (List (Scalar × Value))
  | .scalar .null => .ok []
  | .map entries => .ok (Assoc.ofList Scalar.same (toEntries entries))
  | _ => .error (.notMapping field)

/-- An integer. -/
def expectInteger (field : String) : Argument → Slot Int
  | .scalar .null => .error (.null field)
  | .scalar (.int n) => .ok n
  | _ => .error (.notInteger field)

/-- A text that is not blank; of a value of another type only that it is there is asked. -/
def requireNonEmpty (field : String) (v : Value) : Slot Value :=
  if v.isBlank then .error (.blank field) else .ok v

/-- A value that is there. -/
def requireNonNull (field : String) : Value → Slot Value
  | .scalar .null => .error (.null field)
  | v => .ok v

/-- A value of the type with a name; truth values count as integers too. -/
def requireType (field expected : String) (v : Value) : Slot Value :=
  match v with
  | .scalar .null => .error (.null field)
  | v =>
    if v.typeName == expected || (expected == "int" && v.typeName == "bool") then .ok v
    else .error (.wrongType field expected v.typeName)

/-- The word of a set inside an argument. -/
def word? : Argument → Option Word
  | .scalar (.word w) => some w
  | _ => none

/-- A scope level. -/
def scopeLevel? (a : Argument) : Option ScopeLevel :=
  match a.word? with
  | some (.scopeLevel w) => some w
  | _ => none

/-- A definition kind. -/
def definitionKind? (a : Argument) : Option DefinitionKind :=
  match a.word? with
  | some (.definitionKind w) => some w
  | _ => none

/-- A reference kind. -/
def referenceKind? (a : Argument) : Option ReferenceKind :=
  match a.word? with
  | some (.referenceKind w) => some w
  | _ => none

/-- A documentation format. -/
def documentationFormat? (a : Argument) : Option DocumentationFormat :=
  match a.word? with
  | some (.documentationFormat w) => some w
  | _ => none

/-- A unit type. -/
def unitType? (a : Argument) : Option UnitType :=
  match a.word? with
  | some (.unitType w) => some w
  | _ => none

/-- A position. -/
def position? : Argument → Option Position
  | .entity (.position p) _ => some p
  | _ => none

/-- A scope. -/
def scope? : Argument → Option Scope
  | .entity (.scope s) _ => some s
  | _ => none

/-- A reference. -/
def reference? : Argument → Option Reference
  | .entity (.reference r) _ => some r
  | _ => none

/-- A documentation tag. -/
def tag? : Argument → Option DocumentationTag
  | .entity (.tag t) _ => some t
  | _ => none

/-- A piece of documentation. -/
def documentation? : Argument → Option Documentation
  | .entity (.documentation d) _ => some d
  | _ => none

/-- A definition. -/
def definition? : Argument → Option Definition
  | .entity (.definition d) _ => some d
  | _ => none

/-- A unit. -/
def unit? : Argument → Option CodeUnit
  | .entity (.unit u) _ => some u
  | _ => none

/-- The number one more than an argument. -/
def plusOne : Argument → Except ArgumentError Argument
  | .scalar (.int n) => .ok (.scalar (.int (n + 1)))
  | .scalar (.bool b) => .ok (.scalar (.int (if b then 2 else 1)))
  | .scalar (.decimal d) => .ok (.scalar (.decimal d))
  | a => .error (.notAddable a.typeName)

end Argument

end CodeOutline
