/-
CodeOutline/Entity/Position.lean

Places in a source text.

Lines and columns are counted from one and offsets from zero; all three count characters.  Two
places are compared by line and column only.
-/
import CodeOutline.Entity.Error
import CodeOutline.Json

namespace CodeOutline

/-- A place in a source text. -/
structure Position where
  line : Nat
  column : Nat
  offset : Nat
  line_pos : 1 ≤ line := by decide
  column_pos : 1 ≤ column := by decide
  deriving DecidableEq, Repr

namespace Position

/-- The first place of any text. -/
def origin : Position := { line := 1, column := 1, offset := 0 }

instance : Inhabited Position := ⟨origin⟩

/-! ### Order -/

/-- Whether a place comes before another one. -/
def isBefore (p q : Position) : Bool :=
  if p.line ≠ q.line then p.line < q.line else p.column < q.column

/-- Whether a place comes after another one. -/
def isAfter (p q : Position) : Bool :=
  if p.line ≠ q.line then p.line > q.line else p.column > q.column

theorem isBefore_iff {p q : Position} :
    p.isBefore q = true ↔ p.line < q.line ∨ p.line = q.line ∧ p.column < q.column := by
  unfold isBefore
  split <;> simp only [decide_eq_true_eq] <;> omega

theorem isAfter_eq (p q : Position) : p.isAfter q = q.isBefore p := by
  rw [Bool.eq_iff_iff, isBefore_iff]
  unfold isAfter
  split <;> simp only [decide_eq_true_eq] <;> omega

theorem isBefore_irrefl (p : Position) : p.isBefore p = false := by
  simp [isBefore]

/-- A place that does not come before a second one does not come before a third one either, if
the second does not. -/
theorem not_isBefore_trans {p q r : Position} (h : p.isBefore q = false)
    (h' : q.isBefore r = false) : p.isBefore r = false := by
  rw [Bool.eq_false_iff, ne_eq, isBefore_iff] at *
  omega

/-- Line and column counted from zero. -/
def toZeroBased (p : Position) : Nat × Nat := (p.line - 1, p.column - 1)

/-! ### Building -/

/-- The argument places of a position. -/
structure Draft where
  line : Slot Int := .error (.null "line")
  column : Slot Int := .error (.null "column")
  offset : Slot Int := .ok 0

/-- A position from three numbers. -/
def make (line column offset : Int) : Except ArgumentError Position :=
  if h₁ : line < 1 then .error .lineNotPositive
  else if h₂ : column < 1 then .error .columnNotPositive
  else if offset < 0 then .error .offsetNegative
  else .ok { line := line.toNat, column := column.toNat, offset := offset.toNat,
             line_pos := by omega, column_pos := by omega }

/-- The position of a draft. -/
def Draft.build (d : Draft) : Except ArgumentError Position := do
  let line ← d.line
  let column ← d.column
  let offset ← d.offset
  make line column offset

theorem make_ofNat (p : Position) : make p.line p.column p.offset = .ok p := by
  have h₁ := p.line_pos
  have h₂ := p.column_pos
  unfold make
  rw [dif_neg (by omega), dif_neg (by omega), if_neg (by omega)]
  rfl

/-- The setters of a position. -/
inductive Call where
  | line (s : Slot Int)
  | column (s : Slot Int)
  | offset (s : Slot Int)

/-- A draft after a setter. -/
def Draft.apply (d : Draft) : Call → Draft
  | .line s => { d with line := s }
  | .column s => { d with column := s }
  | .offset s => { d with offset := s }

/-! ### Writing out -/

/-- A position in JSON. -/
def toJson (p : Position) : Json :=
  .obj [("line", .int p.line), ("column", .int p.column), ("offset", .int p.offset)]

/-- A position in JSON, or null. -/
def optionToJson : Option Position → Json
  | none => .null
  | some p => p.toJson

end Position

end CodeOutline
