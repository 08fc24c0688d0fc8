/-
CodeOutline/Python/ModuleName.lean

Names of modules.

The dotted name of a module is its path below a source root, without the suffix of the file.  A
leading `src` is no part of it.  A module outside the root has no name, and the root itself cannot
be a module.
-/
import CodeOutline.Failure

namespace CodeOutline.Python

/-- A module's path below the source root without a leading `src`. -/
def dropSourceFolder : List String → List String
  | "src" :: parts => parts
  | parts => parts

/-- The names that lead from a source root to a path; none where the path is not below it. -/
def namesBelow? (workingDirectory : List String) (path root : Path) : Option (List String) :=
  if path.isNameable && root.isNameable then
    Path.below? (root.resolve workingDirectory) (path.resolve workingDirectory)
  else none

/-- The parts of the dotted name of a module; none without a path, without a root, or outside the
root. -/
def moduleParts (workingDirectory : List String) (path root : Option Path) :
    Except Failure (List String) :=
  match path, root with
  | some path, some root =>
    match namesBelow? workingDirectory path root with
    | none => .ok []
    | some names =>
      match Path.withoutSuffix? ⟨.relative, names⟩ with
      | none => .error (.noModuleName ⟨.relative, names⟩)
      | some p => .ok (dropSourceFolder p.parts)
  | _, _ => .ok []

/-- The package a module belongs to: its dotted name without the last part. -/
def packageOf (parts : List String) : String := ".".intercalate parts.dropLast

end CodeOutline.Python
