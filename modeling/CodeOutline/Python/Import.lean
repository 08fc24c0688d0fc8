/-
CodeOutline/Python/Import.lean

The names that a module imports.

A statement imports whole modules, or names out of one module.  That module can be given relative
to the one that imports: one dot stands for its package, every further dot for a package farther
out.  Where there are more dots than packages, the name behind the dots is taken as it stands.
The name of what is imported may be missing.
-/
import CodeOutline.Python.Name

namespace CodeOutline.Python

/-- One import. -/
inductive Import where
  /-- A module. -/
  | whole (name : Option String)
  /-- A name out of a module; `level` is the number of dots in front of the module. -/
  | member (level : Int) (source : String) (name : Option String)
  deriving DecidableEq, Repr

/-- A dotted name. -/
def dottedPath (parts : List String) : String := ".".intercalate parts

/-- The module that dots and a name mean inside the module with the given parts. -/
def resolveRelative (parts : List String) (level : Nat) (source : String) : String :=
  if parts.length < level then source
  else
    let base := parts.take (parts.length - level)
    dottedPath (if source == "" then base else base ++ [source])

/-- The module out of which a name is imported. -/
def sourceModule (parts : List String) (level : Int) (source : String) : String :=
  if 0 < level then resolveRelative parts level.toNat source else source

/-- The full name of what is imported into the module with the given parts. -/
def Import.fullName (parts : List String) : Import → Option String
  | .whole name => name
  | .member level source name =>
    let source := sourceModule parts level source
    if name == some "*" then some (source ++ ".*")
    else if source == "" then name
    else some (source ++ "." ++ wordOrNone name)

/-- Whether an import depends on the module that it stands in. -/
def Import.isRelative : Import → Bool
  | .whole _ => false
  | .member level _ _ => decide (0 < level)

/-- The names that an import statement lists. -/
def importedNames (n : Node) : Except TreeDefect (List (Option String)) :=
  (n.places "names").mapM fun a =>
    if a.isGap then .error (.emptyPlace "name") else .ok (a.text? "name")

/-- The imports of one node. -/
def importsAt (n : Node) : Except TreeDefect (List Import) :=
  if n.kind = "Import" then (importedNames n).map (fun names => names.map .whole)
  else if n.kind = "ImportFrom" then
    match n.number? "level" with
    | none => .error .noLevel
    | some level => (importedNames n).map (fun names => names.map (.member level (n.text "module")))
  else .ok []

/-- The imports in a tree, in source order. -/
def importsOf (root : Node) : Except TreeDefect (List Import) :=
  (root.preorder.mapM importsAt).map List.flatten

/-- An import from a module known by its full name says the same in every module. -/
theorem Import.fullName_eq {i : Import} (h : i.isRelative = false) (parts parts' : List String) :
    i.fullName parts = i.fullName parts' := by
  cases i with
  | whole name => rfl
  | member level source name =>
    have h : ¬ 0 < level := by simpa [isRelative] using h
    simp [fullName, sourceModule, h]

end CodeOutline.Python
