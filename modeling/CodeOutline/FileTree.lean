/-
CodeOutline/FileTree.lean

Files below a working directory.

A path is followed name by name, and every name that is passed through must be a directory: so
`a/..` leads back only if there is a directory `a`.  Directories are there because files lie in
them, or because the working directory lies in them.
-/
import CodeOutline.Failure
import CodeOutline.Text.Utf8

namespace CodeOutline

open Text.Utf8 (Octets)

/-- Some files with their contents, by the names that lead to them from the working directory. -/
structure FileTree where
  /-- The names that lead from the root to the working directory. -/
  workingDirectory : List String
  files : List (List String × Octets)

namespace FileTree

/-- The files by the names that lead to them from the root. -/
def places (t : FileTree) : List (List String × Octets) :=
  t.files.map (fun f => (t.workingDirectory ++ f.1, f.2))

/-- The contents of the file at a place. -/
def contents? (t : FileTree) (place : List String) : Option Octets :=
  Assoc.find? (· == ·) place t.places

/-- Whether something lies below a place, or it leads to the working directory. -/
def isDirectory (t : FileTree) (place : List String) : Bool :=
  place.isPrefixOf t.workingDirectory ||
    t.places.any (fun f => place.isPrefixOf f.1 && place != f.1)

/-- What a place is that is no directory. -/
def blocked (t : FileTree) (place : List String) : ReadFailure :=
  if (t.contents? place).isSome then .notADirectory else .notFound

/-- Follows names from a place. -/
def follow (t : FileTree) (place : List String) : List String → Except ReadFailure (List String)
  | [] => .ok place
  | name :: names =>
    if t.isDirectory place then t.follow (Path.enter place name) names
    else .error (t.blocked place)

/-- The place at which a path starts. -/
def startOf (t : FileTree) (p : Path) : List String :=
  match p.anchor with
  | .relative => t.workingDirectory
  | _ => []

/-- Reads a file. -/
def read (t : FileTree) (p : Path) : Except ReadFailure Octets := do
  let place ← t.follow (t.startOf p) p.parts
  match t.contents? place with
  | some octets => return octets
  | none => if t.isDirectory place then .error .isADirectory else .error .notFound

/-- A path that can be followed leads to the place it resolves to. -/
theorem eq_of_follow {t : FileTree} {place names stop : List String}
    (h : t.follow place names = .ok stop) : stop = names.foldl Path.enter place := by
  induction names generalizing place with
  | nil => simpa [follow] using h.symm
  | cons name names ih =>
    rw [follow] at h
    split at h
    · exact ih h
    · simp at h

end FileTree

end CodeOutline
