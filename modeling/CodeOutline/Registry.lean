/-
CodeOutline/Registry.lean

What is responsible for files of an extension.

Extensions are registered in any letter case, with dots in front or without, and with blanks
around them; what is left without these must not be blank.  A later registration replaces an
earlier one with the same extension.  What is registered makes an analyzer from a source root,
which is the folder of the file where no other is given.
-/
import CodeOutline.Assoc
import CodeOutline.Entity.Error
import CodeOutline.Path
import CodeOutline.Text.Lowercase

namespace CodeOutline

/-- The makers of analyzers by extension. -/
structure Registry (α : Type) where
  entries : List (String × (Path → α))

namespace Registry

variable {α : Type}

/-- A registry without entries. -/
def empty : Registry α := ⟨[]⟩

/-- An extension without dots in front, in lowercase. -/
def undotted (cs : List Char) : List Char := Text.lower (cs.dropWhile (· == '.'))

/-- The form in which an extension is kept. -/
def normal (extension : String) : String :=
  String.ofList (undotted (Text.trim extension.toList))

/-- Makes a maker responsible for an extension. -/
def register (r : Registry α) (extension : Option String) (maker : Option (Path → α)) :
    Except ArgumentError (Registry α) :=
  match extension with
  | none => .error (.blank "extension")
  | some extension =>
    if Text.allBlank extension then .error (.blank "extension")
    else
      match maker with
      | none => .error (.null "factory")
      | some maker =>
        if Text.allBlank (normal extension) then .error (.blank "extension")
        else .ok ⟨Assoc.insert (· == ·) (normal extension) maker r.entries⟩

/-- What is made for a file. -/
def resolve (r : Registry α) (path : Path) (root : Option Path) : Option α :=
  (Assoc.find? (· == ·) path.extension r.entries).map (fun maker => maker (root.getD path.parent))

/-- Whether something is responsible for a file. -/
def supports (r : Registry α) (path : Path) : Bool :=
  (Assoc.find? (· == ·) path.extension r.entries).isSome

/-- The extensions, sorted. -/
def extensions (r : Registry α) : List String :=
  (Assoc.keys r.entries).mergeSort (fun a b => decide (a ≤ b))

/-- Whether an extension is registered; blanks around it count. -/
def contains (r : Registry α) (extension : String) : Bool :=
  (Assoc.find? (· == ·) (String.ofList (undotted extension.toList)) r.entries).isSome

/-- The number of extensions. -/
def size (r : Registry α) : Nat := r.entries.length

theorem isSome_resolve (r : Registry α) (path : Path) (root : Option Path) :
    (r.resolve path root).isSome = r.supports path := by
  simp [resolve, supports]

end Registry

end CodeOutline
