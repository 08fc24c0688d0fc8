/-
CodeOutline/Metadata.lean

Metadata: facts of any shape that are attached to an entity.

A value is a scalar, a list, a set of scalars, or a map with scalar keys.  The metadata of an
entity is a map with text keys (`Metadata`); `Metadata.ofEntries` turns the keys of any map into
text, and of two keys with one text the later wins.  Numbers are compared by value, so `1`, `1.0`
and `true` are one key.  Integers are exact and decimal numbers are worth the nearest number of
53 binary digits, so 10^23 and `1e23` are two keys.  `Value.same` extends this to values,
regardless of the order in which maps and sets hold their parts.

What is no value itself, an entity for instance, takes part in values as a token.
-/
import CodeOutline.Json
import CodeOutline.Entity.Kind
import CodeOutline.Text.Blank

namespace CodeOutline

/-! ### Scalars -/

/-- Something that is no value and stands among values: its type, a number that it shares with its
equals only, how it is described as a key, and how it is written as a value. -/
structure Token where
  type : String
  number : Nat
  text : String
  json : Json
  deriving Repr

/-- Whether two tokens stand for equals. -/
def Token.same (a b : Token) : Bool := a.type == b.type && a.number == b.number

/-- A value without parts. -/
inductive Scalar where
  | null
  | bool (b : Bool)
  | int (n : Int)
  | decimal (d : Decimal)
  | text (s : String)
  | word (w : Word)
  | token (t : Token)
  deriving Repr

namespace Scalar

/-- The number a scalar counts as. -/
def number? : Scalar → Option Decimal
  | .bool b => some (.ofInt (if b then 1 else 0))
  | .int n => some (.ofInt n)
  | .decimal d => some d.toBinary
  | _ => none

/-- Whether two scalars that are no numbers are equal. -/
def alike : Scalar → Scalar → Bool
  | .null, .null => true
  | .text a, .text b => a == b
  | .word a, .word b => a == b
  | .token a, .token b => a.same b
  | _, _ => false

/-- Whether two scalars are equal: numbers by value, tokens by type and number, all else exactly. -/
def same (a b : Scalar) : Bool :=
  match a.number?, b.number? with
  | some m, some n => m.same n
  | none, none => a.alike b
  | _, _ => false

theorem same_refl (a : Scalar) : a.same a = true := by
  cases a <;> simp [same, number?, alike, Token.same, Decimal.same_refl]

theorem alike_comm (a b : Scalar) : a.alike b = b.alike a := by
  cases a <;> cases b <;> simp [alike, Token.same, BEq.comm]

theorem same_comm (a b : Scalar) : a.same b = b.same a := by
  unfold same
  rcases a.number? with - | m <;> rcases b.number? with - | n <;>
    simp [Decimal.same_comm, alike_comm a b]

/-- A scalar as text, in which form it serves as a key. -/
def render : Scalar → String
  | .null => "None"
  | .bool b => if b then "True" else "False"
  | .int n => toString n
  | .decimal d => d.render
  | .text s => s
  | .word w => w.text
  | .token t => t.text

/-- A scalar in JSON; a word is written by its code. -/
def toJson : Scalar → Json
  | .null => .null
  | .bool b => .bool b
  | .int n => .int n
  | .decimal d => .decimal d
  | .text s => .str s
  | .word w => .str w.code
  | .token t => t.json

/-- The name of a scalar's type, as messages give it. -/
def typeName : Scalar → String
  | .null => "NoneType"
  | .bool _ => "bool"
  | .int _ => "int"
  | .decimal _ => "float"
  | .text _ => "str"
  | .word w => w.setName
  | .token t => t.type

end Scalar

/-- The distinct scalars of a list, the first of each. -/
def distinctScalars (ss : List Scalar) : List Scalar :=
  ss.foldl (fun kept s => if kept.any (fun k => k.same s) then kept else kept ++ [s]) []

/-! ### Values -/

/-- A value of metadata. -/
inductive Value where
  | scalar (s : Scalar)
  | list (items : List Value)
  | set (members : List Scalar)
  | map (entries : List (Scalar × Value))
  deriving Repr, Inhabited

/-- Text keys and their values, in the order in which the keys first came. -/
abbrev Metadata := List (String × Value)

namespace Value

instance : Coe String Value := ⟨fun s => .scalar (.text s)⟩

/-- The value that stands for nothing. -/
abbrev null : Value := .scalar .null

/-- A text. -/
abbrev text (s : String) : Value := .scalar (.text s)

/-- A truth value. -/
abbrev bool (b : Bool) : Value := .scalar (.bool b)

/-- A list of texts. -/
def texts (ss : List String) : Value := .list (ss.map text)

/-- A text, or nothing. -/
def textOrNull : Option String → Value
  | none => null
  | some s => text s

/-- The map that is left when entries are written one after the other. -/
def ofEntries (es : List (Scalar × Value)) : Value := .map (Assoc.ofList Scalar.same es)

/-- The set of some scalars. -/
def ofMembers (ss : List Scalar) : Value := .set (distinctScalars ss)

/-- The text inside a value that is one. -/
def text? : Value → Option String
  | .scalar (.text s) => some s
  | _ => none

/-- Whether a value has no parts. -/
def isScalar : Value → Bool
  | .scalar _ => true
  | _ => false

/-- Nothing, or a text without a character that is not blank. -/
def isBlank : Value → Bool
  | .scalar .null => true
  | .scalar (.text s) => Text.allBlank s
  | _ => false

/-- The name of a value's type, as messages give it. -/
def typeName : Value → String
  | .scalar s => s.typeName
  | .list _ => "list"
  | .set _ => "set"
  | .map _ => "dict"

/-- Whether two sets have the same members. -/
def sameMembers (a b : List Scalar) : Bool :=
  a.length == b.length && a.all (fun s => b.any s.same)

mutual

/-- Whether two values are equal. -/
def same : Value → Value → Bool
  | .scalar a, .scalar b => a.same b
  | .list a, .list b => sameItems a b
  | .set a, .set b => sameMembers a b
  | .map a, .map b => a.length == b.length && sameEntries a b
  | _, _ => false

/-- Whether two lists of values are equal item by item. -/
def sameItems : List Value → List Value → Bool
  | [], [] => true
  | a :: as, b :: bs => same a b && sameItems as bs
  | _, _ => false

/-- Whether every entry of the first list has an equal one in the second. -/
def sameEntries : List (Scalar × Value) → List (Scalar × Value) → Bool
  | [], _ => true
  | (k, v) :: es, other =>
    (match Assoc.find? Scalar.same k other with
      | some w => same v w
      | none => false) && sameEntries es other

end

theorem same_scalar (a b : Scalar) : (scalar a).same (scalar b) = a.same b := by rw [same]

theorem same_set (as bs : List Scalar) : (set as).same (set bs) = sameMembers as bs := by rw [same]

end Value

namespace Metadata

/-- A map as metadata: its keys as text, the later of two entries with one key. -/
def ofEntries (es : List (Scalar × Value)) : Metadata :=
  Assoc.ofList (· == ·) (es.map (fun e => (e.1.render, e.2)))

/-- The value under a key. -/
def get? (m : Metadata) (key : String) : Option Value := Assoc.find? (· == ·) key m

/-- Metadata as a map. -/
def toEntries (m : Metadata) : List (Scalar × Value) := m.map (fun e => (.text e.1, e.2))

/-- Whether two pieces of metadata are equal, whatever the order of their keys. -/
def same (a b : Metadata) : Bool := (Value.map a.toEntries).same (.map b.toEntries)

/-- The entry under a key, if it is a text. -/
def text? (m : Metadata) (key : String) : Option String := (get? m key).bind Value.text?

end Metadata

end CodeOutline
