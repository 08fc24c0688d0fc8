/-
CodeOutline/Identifier.lean

Identifiers, as most languages write them.
-/
import CodeOutline.Text.Category

namespace CodeOutline

/-- A letter or an underscore, and then only letters, decimal digits and underscores. -/
def isIdentifier (name : String) : Bool :=
  match name.toList with
  | [] => false
  | c :: cs =>
    (Text.isLetter c || c == '_') &&
      cs.all (fun c => Text.isLetter c || Text.isDecimalDigit c || c == '_')

@[simp] theorem isIdentifier_empty : isIdentifier "" = false := rfl

end CodeOutline
