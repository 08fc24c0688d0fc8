/-
CodeOutline/Proofs/Python/Imports.lean

Which imports a module lists, and under which names.

An import statement may stand anywhere in a tree, and lists some aliases.  The imports of a tree are
those of all aliases of all its import statements, in source order (`importsOf_eq_ok_iff`).

The entry for an alias is put together of pieces: the parts of the package that the dots in front of
the module stand for (`packagePieces`), the module and the name.  One dot stands for the package of
the module that imports, and every further dot takes one part off its end; with more dots than that,
only the module and the name are left.  An empty module is left out (`keptPieces`).  `ImportsRead`
says all this of the metadata of a unit.
-/
import CodeOutline.Proofs.Python.Making
import CodeOutline.Proofs.Metadata.Lookup
import Mathlib.Data.List.DropRight

namespace CodeOutline.Python

open Outcome

variable {t : LineIndex} {root s a : Node} {parts : List String} {level : Int} {source : String}

/-! ### Import statements -/

/-- Whether a node is an import statement. -/
def isImport (n : Node) : Bool := n.kind == "Import" || n.kind == "ImportFrom"

/-- The aliases that a node lists, each with the node: import statements list some. -/
def aliasesOf (n : Node) : List (Node × Node) :=
  if isImport n then (n.places "names").map (fun a => (n, a)) else []

/-- The aliases of all import statements of a tree at any depth, in source order. -/
def importedAliases (root : Node) : List (Node × Node) := root.preorder.flatMap aliasesOf

/-- The import that an alias in a statement stands for. -/
def importOf (a : Node × Node) : Import :=
  if a.1.kind = "Import" then .whole (a.2.text? "name")
  else .member ((a.1.number? "level").getD 0) (a.1.text "module") (a.2.text? "name")

/-- An import statement has all its aliases, and tells how many dots stand in front of a module out
of which it imports. -/
structure IsComplete (s : Node) : Prop where
  names : ∀ a ∈ s.places "names", a.isGap = false
  level : s.kind = "ImportFrom" → (s.number? "level").isSome = true

theorem importedNames_eq_ok_iff {n : Node} {names : List (Option String)} :
    importedNames n = .ok names ↔
      (∀ a ∈ n.places "names", a.isGap = false) ∧
        names = (n.places "names").map (fun a => a.text? "name") := by
  unfold importedNames
  apply mapM_eq_ok_iff_map
  intro a name
  by_cases h : a.isGap = true
  · simp [h]
  · simp [h, eq_comm]

theorem importsAt_eq_ok_iff {n : Node} {is : List Import} :
    importsAt n = .ok is ↔
      (isImport n = true → IsComplete n) ∧ is = (aliasesOf n).map importOf := by
  unfold importsAt
  by_cases hwhole : n.kind = "Import"
  · -- modules as a whole
    have himport : isImport n = true := by simp [isImport, hwhole]
    rw [if_pos hwhole, map_eq_ok_iff]
    simp only [importedNames_eq_ok_iff, aliasesOf, himport, if_true, true_imp_iff]
    constructor
    · rintro ⟨_, ⟨hnames, rfl⟩, rfl⟩
      refine ⟨⟨hnames, fun h => absurd h (by simp [hwhole])⟩, ?_⟩
      simp [importOf, hwhole]
    · rintro ⟨hcomplete, rfl⟩
      refine ⟨_, ⟨hcomplete.names, rfl⟩, ?_⟩
      simp [importOf, hwhole]
  · rw [if_neg hwhole]
    by_cases hmember : n.kind = "ImportFrom"
    · -- names out of a module
      have himport : isImport n = true := by simp [isImport, hmember]
      rw [if_pos hmember]
      simp only [aliasesOf, himport, if_true, true_imp_iff]
      rcases hlevel : n.number? "level" with - | level
      · constructor
        · intro h
          cases h
        · intro h
          simpa [hlevel] using h.1.level hmember
      · show (importedNames n).map _ = _ ↔ _
        rw [map_eq_ok_iff]
        simp only [importedNames_eq_ok_iff]
        constructor
        · rintro ⟨_, ⟨hnames, rfl⟩, rfl⟩
          refine ⟨⟨hnames, fun _ => by simp [hlevel]⟩, ?_⟩
          simp [importOf, hwhole, hlevel]
        · rintro ⟨hcomplete, rfl⟩
          refine ⟨_, ⟨hcomplete.names, rfl⟩, ?_⟩
          simp [importOf, hwhole, hlevel]
    · -- no import statement
      have himport : isImport n = false := by simp [isImport, hwhole, hmember]
      rw [if_neg hmember]
      simp [aliasesOf, himport, eq_comm]

/-- The imports of a tree are those of its aliases, and are there if its import statements are
complete. -/
theorem importsOf_eq_ok_iff {imports : List Import} :
    importsOf root = .ok imports ↔
      (∀ n ∈ root.preorder, isImport n = true → IsComplete n) ∧
        imports = (importedAliases root).map importOf := by
  rw [importsOf, map_eq_ok_iff]
  simp only [mapM_eq_ok_iff_map (fun _ _ => importsAt_eq_ok_iff), importedAliases]
  constructor
  · rintro ⟨_, ⟨hcomplete, rfl⟩, rfl⟩
    refine ⟨hcomplete, ?_⟩
    rw [List.map_flatMap, List.flatMap_def]
  · rintro ⟨hcomplete, rfl⟩
    refine ⟨_, ⟨hcomplete, rfl⟩, ?_⟩
    rw [List.map_flatMap, List.flatMap_def]

/-! ### Names of modules -/

/-- The parts of the package that the dots in front of a module stand for, if there are so many. -/
def packagePieces (parts : List String) (level : Int) : List String :=
  if 0 < level ∧ level ≤ parts.length then parts.dropLast.rdrop (level.toNat - 1) else []

/-- The pieces of the name of a module with so many dots in front of it: the parts of a package and
the name behind the dots, if there is one. -/
def modulePieces (parts : List String) (level : Int) (source : String) : List String :=
  packagePieces parts level ++ [source].filter (fun p => p != "")

/-- The pieces that are put in front of a name out of a module: none if the module has no name.  If
no part is empty, only the name behind the dots can be (`keptPieces_eq_filter`). -/
def keptPieces (parts : List String) (level : Int) (source : String) : List String :=
  if modulePieces parts level source = [""] then [] else modulePieces parts level source

theorem dottedPath_concat {pieces : List String} (h : pieces ≠ []) (name : String) :
    dottedPath (pieces ++ [name]) = dottedPath pieces ++ "." ++ name := by
  show ".".intercalate (pieces ++ [name]) = ".".intercalate pieces ++ "." ++ name
  rw [String.intercalate_append_of_ne_nil h (by simp), String.intercalate_singleton]

theorem dottedPath_eq_empty_iff {pieces : List String} :
    dottedPath pieces = "" ↔ pieces = [] ∨ pieces = [""] := by
  constructor
  · intro hempty
    rcases List.eq_nil_or_concat pieces with hnil | ⟨before, last, hlast⟩
    · exact .inl hnil
    · rw [hlast, List.concat_eq_append] at hempty ⊢
      have hbefore : before = [] := by
        by_contra hne
        -- there would be a dot
        rw [dottedPath_concat hne, String.append_eq_empty_iff, String.append_eq_empty_iff] at hempty
        exact absurd hempty.1.2 (by decide)
      subst hbefore
      rw [List.nil_append, dottedPath, String.intercalate_singleton] at hempty
      exact .inr (by rw [hempty]; rfl)
  · rintro (rfl | rfl)
    · exact String.intercalate_nil
    · exact String.intercalate_singleton

theorem dottedPath_keptPieces (parts : List String) (level : Int) (source : String) :
    dottedPath (keptPieces parts level source) = dottedPath (modulePieces parts level source) := by
  unfold keptPieces
  split
  · next h =>
    rw [h]
    rfl
  · rfl

theorem keptPieces_eq_nil_iff :
    keptPieces parts level source = [] ↔ dottedPath (modulePieces parts level source) = "" := by
  rw [dottedPath_eq_empty_iff, keptPieces]
  split
  · next h => simp [h]
  · next h => simp [h]

theorem packagePieces_subset (parts : List String) (level : Int) :
    packagePieces parts level ⊆ parts := by
  unfold packagePieces
  split
  · intro p hp
    exact List.dropLast_subset _ (List.mem_of_mem_take hp)
  · exact List.nil_subset _

/-- Where no part is empty, all pieces are kept. -/
theorem keptPieces_eq_modulePieces (h : "" ∉ parts) (level : Int) (source : String) :
    keptPieces parts level source = modulePieces parts level source := by
  have hnone : "" ∉ modulePieces parts level source := by
    rw [modulePieces, List.mem_append, not_or]
    refine ⟨fun hmem => h (packagePieces_subset parts level hmem), ?_⟩
    intro hmem
    simpa using (List.mem_filter.mp hmem).2
  rw [keptPieces, if_neg fun hsingle => hnone (by rw [hsingle]; exact List.mem_singleton_self _)]

/-- Where no part is empty, the pieces that are kept are those that are not empty. -/
theorem keptPieces_eq_filter (h : "" ∉ parts) (level : Int) (source : String) :
    keptPieces parts level source
      = (packagePieces parts level ++ [source]).filter (fun p => p != "") := by
  have hpackage : ∀ p ∈ packagePieces parts level, (p != "") = true := by
    intro p hp
    simpa using ne_of_mem_of_not_mem (packagePieces_subset parts level hp) h
  rw [keptPieces_eq_modulePieces h, modulePieces, List.filter_append,
    List.filter_eq_self.mpr hpackage]

/-- Taking parts off the end of a package is taking one more off the end of a module in it. -/
theorem rdrop_dropLast {n : Nat} (h : 0 < n) :
    parts.dropLast.rdrop (n - 1) = parts.take (parts.length - n) := by
  rw [List.rdrop, List.dropLast_eq_take, List.length_take, List.take_take]
  congr 1
  omega

/-- A name alone is its only piece, if it is not empty. -/
theorem dottedPath_filter_singleton (name : String) :
    dottedPath ([name].filter (fun p => p != "")) = name := by
  by_cases hempty : name = ""
  · rw [hempty]
    rfl
  · rw [List.filter_cons_of_pos (by simpa using hempty)]
    exact String.intercalate_singleton

/-- The name of the module that an import is from is made of its pieces. -/
theorem sourceModule_eq (parts : List String) (level : Int) (source : String) :
    sourceModule parts level source = dottedPath (modulePieces parts level source) := by
  unfold sourceModule modulePieces packagePieces
  by_cases hlevel : 0 < level
  · rw [if_pos hlevel]
    unfold resolveRelative
    by_cases hdeep : parts.length < level.toNat
    · -- more dots than parts
      rw [if_pos hdeep, if_neg (by omega), List.nil_append, dottedPath_filter_singleton]
    · rw [if_neg hdeep, if_pos (by omega), rdrop_dropLast (by omega)]
      by_cases hempty : source = ""
      · simp [hempty]
      · simp [hempty]
  · -- no dots
    rw [if_neg hlevel, if_neg (by omega), List.nil_append, dottedPath_filter_singleton]

/-! ### Entries -/

/-- The entry that a module has for an alias in an import statement. -/
inductive IsEntry (parts : List String) (s a : Node) : Option String → Prop
  /-- A module as a whole is listed by its name. -/
  | whole (hs : s.kind = "Import") : IsEntry parts s a (a.text? "name")
  /-- A star stands for all names of a module. -/
  | star {level : Int} (hs : s.kind = "ImportFrom") (hlevel : s.number? "level" = some level)
    (hname : a.text? "name" = some "*") :
    IsEntry parts s a (some (dottedPath (keptPieces parts level (s.text "module")) ++ ".*"))
  /-- A name out of a module is listed with that of the module, if there is one. -/
  | member {level : Int} {name : String} (hs : s.kind = "ImportFrom")
    (hlevel : s.number? "level" = some level) (hname : a.text? "name" = some name)
    (hstar : name ≠ "*") :
    IsEntry parts s a (some (dottedPath (keptPieces parts level (s.text "module") ++ [name])))
  /-- An alias without a name is written as a missing word where a module stands in front of it. -/
  | nameless {level : Int} (hs : s.kind = "ImportFrom") (hlevel : s.number? "level" = some level)
    (hname : a.text? "name" = none) :
    IsEntry parts s a (if keptPieces parts level (s.text "module") = [] then none
      else some (dottedPath (keptPieces parts level (s.text "module") ++ [wordOrNone none])))

/-- A name out of a module is put behind that of the module. -/
theorem fullName_member (parts : List String) (level : Int) (source : String)
    {name : Option String} (hstar : name ≠ some "*") :
    (Import.member level source name).fullName parts
      = if keptPieces parts level source = [] then name
        else some (dottedPath (keptPieces parts level source ++ [wordOrNone name])) := by
  show (if name == some "*" then _ else if sourceModule parts level source == "" then name
    else some (sourceModule parts level source ++ "." ++ wordOrNone name)) = _
  rw [if_neg (by simpa using hstar), sourceModule_eq]
  by_cases hnone : keptPieces parts level source = []
  · rw [if_pos (by simpa using keptPieces_eq_nil_iff.mp hnone), if_pos hnone]
  · have hmodule := keptPieces_eq_nil_iff.not.mp hnone
    rw [if_neg (by simpa using hmodule), if_neg hnone, dottedPath_concat hnone,
      dottedPath_keptPieces]

/-- Each alias of an import statement has the entry that it should. -/
theorem isEntry_fullName (parts : List String) {a : Node × Node} (ha : a ∈ aliasesOf s)
    (hs : IsComplete s) : IsEntry parts a.1 a.2 ((importOf a).fullName parts) := by
  unfold aliasesOf at ha
  split at ha
  · next himport =>
    obtain ⟨a, -, rfl⟩ := List.mem_map.mp ha
    rw [importOf]
    by_cases hwhole : s.kind = "Import"
    · rw [if_pos hwhole]
      exact .whole hwhole
    · have hmember : s.kind = "ImportFrom" := by simpa [isImport, hwhole] using himport
      obtain ⟨level, hlevel⟩ := Option.isSome_iff_exists.mp (hs.level hmember)
      rw [if_neg hwhole, hlevel, Option.getD_some]
      rcases hname : a.text? "name" with - | name
      · rw [fullName_member _ _ _ (by simp)]
        exact .nameless hmember hlevel hname
      · by_cases hstar : name = "*"
        · subst hstar
          show IsEntry parts s a (some (sourceModule parts level (s.text "module") ++ ".*"))
          rw [sourceModule_eq, ← dottedPath_keptPieces]
          exact .star hmember hlevel hname
        · have hentry : (Import.member level (s.text "module") (some name)).fullName parts
              = some (dottedPath (keptPieces parts level (s.text "module") ++ [name])) := by
            rw [fullName_member _ _ _ (by simpa using hstar)]
            split
            · next hnone =>
              rw [hnone, List.nil_append, dottedPath, String.intercalate_singleton]
            · rfl
          rw [hentry]
          exact .member hmember hlevel hname hstar
  · cases ha

/-! ### Units -/

/-- The metadata of a module tell its package, which is its name without the last part, and for each
alias in its tree one entry, in source order. -/
structure ImportsRead (parts : List String) (root : Node) (u : CodeUnit) : Prop where
  package : u.metadata.get? "packageName" = some (.text (dottedPath parts.dropLast))
  imports : ∃ entries : List (Option String),
    u.metadata.get? "imports" = some (.list (entries.map Value.textOrNull)) ∧
    List.Forall₂ (fun a e => IsEntry parts a.1 a.2 e) (importedAliases root) entries

theorem forall₂_isEntry (parts : List String)
    (hcomplete : ∀ n ∈ root.preorder, isImport n = true → IsComplete n) :
    List.Forall₂ (fun a e => IsEntry parts a.1 a.2 e) (importedAliases root)
      (((importedAliases root).map importOf).map (Import.fullName parts)) := by
  rw [List.map_map, List.forall₂_map_right_iff, List.forall₂_same]
  intro a ha
  obtain ⟨s, hs, ha⟩ := List.mem_flatMap.mp ha
  apply isEntry_fullName parts ha
  apply hcomplete s hs
  by_contra himport
  rw [aliasesOf, if_neg himport] at ha
  cases ha

theorem importsRead_of_toUnit {name : String} {o : Outline} {ids : IdSource} {u : CodeUnit}
    (ho : outline t name parts root = .ok o) (hu : o.toUnit ids = .ok u) :
    ImportsRead parts root u := by
  obtain ⟨_, imports, _, -, himports, -, rfl⟩ := outline_eq_ok_iff.mp ho
  obtain ⟨-, rfl⟩ := Outline.toUnit_eq_ok_iff.mp hu
  obtain ⟨hcomplete, rfl⟩ := importsOf_eq_ok_iff.mp himports
  have hkeys : (Metadata.textKeys
      (moduleFacts parts ((importedAliases root).map importOf))).Nodup := by
    simp [Metadata.textKeys, moduleFacts, Scalar.render]
  constructor
  · apply Metadata.get?_ofEntries_of_mem (e := (.text "packageName", packageOf parts)) hkeys
    simp [moduleFacts]
  · refine ⟨_, ?_, forall₂_isEntry parts hcomplete⟩
    rw [List.map_map]
    apply Metadata.get?_ofEntries_of_mem (e := (.text "imports", _)) hkeys
    simp [moduleFacts]

/-! ### Parts of the name of a module -/

/-- No name in a path that is read off a text is empty. -/
theorem empty_notMem_ofString (s : String) : "" ∉ (Path.ofString s).parts := by
  intro h
  simpa using (List.mem_filter.mp h).2

theorem empty_notMem_foldl_enter {names place : List String} (hnames : "" ∉ names)
    (hplace : "" ∉ place) : "" ∉ names.foldl Path.enter place := by
  induction names generalizing place with
  | nil => exact hplace
  | cons name names ih =>
    rw [List.mem_cons, not_or] at hnames
    apply ih hnames.2
    unfold Path.enter
    split
    · intro hmem
      exact hplace (List.dropLast_subset _ hmem)
    · rw [List.mem_append, List.mem_singleton, not_or]
      exact ⟨hplace, hnames.1⟩

theorem empty_notMem_resolve {workingDirectory : List String} {path : Path}
    (hdirectory : "" ∉ workingDirectory) (hpath : "" ∉ path.parts) :
    "" ∉ path.resolve workingDirectory := by
  unfold Path.resolve
  split
  · exact empty_notMem_foldl_enter hpath hdirectory
  · exact empty_notMem_foldl_enter hpath List.not_mem_nil

theorem dropSuffix_ne_empty {name : String} (h : name ≠ "") : Path.dropSuffix name ≠ "" := by
  unfold Path.dropSuffix
  split
  · -- of two characters or more only the last one goes
    simp
  · exact h

theorem empty_notMem_of_withoutSuffix? {path path' : Path} (hpath : "" ∉ path.parts)
    (h : path.withoutSuffix? = some path') : "" ∉ path'.parts := by
  unfold Path.withoutSuffix? at h
  split at h
  · cases h
  · next name hname =>
    cases h
    have hlast : name ≠ "" := ne_of_mem_of_not_mem (List.mem_of_getLast? hname) hpath
    rw [List.mem_append, List.mem_singleton, not_or]
    refine ⟨?_, (dropSuffix_ne_empty hlast).symm⟩
    intro hmem
    exact hpath (List.dropLast_subset _ hmem)

theorem empty_notMem_dropSourceFolder (h : "" ∉ parts) : "" ∉ dropSourceFolder parts := by
  unfold dropSourceFolder
  split
  · intro hmem
    exact h (List.mem_cons_of_mem _ hmem)
  · exact h

/-- No part of the name of a module is empty where no name in its path is. -/
theorem empty_notMem_of_moduleParts {workingDirectory : List String} {path sourceRoot : Option Path}
    (hdirectory : "" ∉ workingDirectory) (hpath : ∀ p ∈ path, "" ∉ p.parts)
    (h : moduleParts workingDirectory path sourceRoot = .ok parts) : "" ∉ parts := by
  unfold moduleParts at h
  split at h
  · next path root =>
    have htarget := empty_notMem_resolve hdirectory (hpath path rfl)
    split at h
    · cases h
      exact List.not_mem_nil
    · next names hnames =>
      have hbelow : "" ∉ names := by
        unfold namesBelow? Path.below? at hnames
        split at hnames
        · split at hnames
          · cases hnames
            intro hmem
            exact htarget (List.mem_of_mem_drop hmem)
          · cases hnames
        · cases hnames
      split at h
      · cases h
      · next p hp =>
        cases h
        apply empty_notMem_dropSourceFolder
        exact empty_notMem_of_withoutSuffix? hbelow hp
  · cases h
    exact List.not_mem_nil

/-- A conversion reads the imports with the parts of the name that the module has below the source
root, of which none is empty. -/
theorem importsRead_of_convert {ids : IdSource} {workingDirectory : List String}
    {sourceRoot : Option Path} {p : Parsed Node} {u : CodeUnit} (hroot : p.tree? = some root)
    (hdirectory : "" ∉ workingDirectory) (hpath : ∀ path ∈ p.path, "" ∉ path.parts)
    (h : convert ids workingDirectory sourceRoot (some p) = .ok u) :
    ∃ parts, moduleParts workingDirectory p.path sourceRoot = .ok parts ∧ "" ∉ parts ∧
      ImportsRead parts root u := by
  obtain ⟨root', parts, o, hroot', hparts, ho, hu⟩ := convert_eq_ok_iff.mp h
  obtain rfl : root = root' := Option.some.inj (hroot.symm.trans hroot')
  exact ⟨parts, hparts, empty_notMem_of_moduleParts hdirectory hpath hparts,
    importsRead_of_toUnit ho hu⟩

/-! ### All modules -/

/-- The imports of a tree can be read if its import statements are complete, and a module lists one
entry for each alias in them, whatever the parts of its name are.  Where none of these is empty, the
pieces of an entry are all that are not. -/
theorem importsRead_of_outline (parts : List String) (root : Node) :
    ((∃ imports, importsOf root = .ok imports) ↔
      ∀ n ∈ root.preorder, isImport n = true → IsComplete n) ∧
    (∀ (t : LineIndex) (name : String) (o : Outline) (ids : IdSource) (u : CodeUnit),
      outline t name parts root = .ok o → o.toUnit ids = .ok u → ImportsRead parts root u) ∧
    ("" ∉ parts → ∀ (level : Int) (source : String), keptPieces parts level source
      = (packagePieces parts level ++ [source]).filter (fun p => p != "")) := by
  refine ⟨?_, ?_, keptPieces_eq_filter⟩
  · constructor
    · rintro ⟨imports, himports⟩
      exact (importsOf_eq_ok_iff.mp himports).1
    · intro hcomplete
      exact ⟨_, importsOf_eq_ok_iff.mpr ⟨hcomplete, rfl⟩⟩
  · intro t name o ids u ho hu
    exact importsRead_of_toUnit ho hu

/-- The tree of a module that imports inside a `try` statement: from its own package, from the one
around it and from a module by name. -/
def guardedTree : Node :=
  ⟨"", "Module", none, [], [
    ⟨"body", "Try", some ⟨1, 0, some 5, some 9⟩, [], [
      ⟨"body", "ImportFrom", some ⟨2, 1, some 2, some 16⟩, [("level", .number 1)], [
        ⟨"names", "alias", some ⟨2, 15, some 2, some 16⟩, [("name", .text "a")], []⟩]⟩,
      ⟨"body", "ImportFrom", some ⟨3, 1, some 3, some 18⟩,
        [("level", .number 2), ("module", .text "m")], [
        ⟨"names", "alias", some ⟨3, 17, some 3, some 18⟩, [("name", .text "b")], []⟩]⟩,
      ⟨"finalbody", "Import", some ⟨5, 1, some 5, some 9⟩, [], [
        ⟨"names", "alias", some ⟨5, 8, some 5, some 9⟩, [("name", .text "c")], []⟩]⟩]⟩]⟩

/-- The text of `guardedTree`. -/
def guardedText : Text.Utf8.Octets :=
  "try:\n from . import a\n from ..m import b\nfinally:\n import c\n".toUTF8.toList

/-- The first two imports are out of `pkg.sub` and `pkg.m`. -/
theorem importsRead_of_outline_guarded :
    "" ∉ ["pkg", "sub", "here"] ∧
    (importedAliases guardedTree).map (fun a => (importOf a).fullName ["pkg", "sub", "here"])
      = [some "pkg.sub.a", some "pkg.m.b", some "c"] ∧
    (∃ o, outline (.ofSource guardedText) "here.py" ["pkg", "sub", "here"] guardedTree = .ok o) ∧
    ((∃ imports, importsOf guardedTree = .ok imports) ↔
      ∀ n ∈ guardedTree.preorder, isImport n = true → IsComplete n) ∧
    (∀ (t : LineIndex) (name : String) (o : Outline) (ids : IdSource) (u : CodeUnit),
      outline t name ["pkg", "sub", "here"] guardedTree = .ok o → o.toUnit ids = .ok u →
        ImportsRead ["pkg", "sub", "here"] guardedTree u) ∧
    ("" ∉ ["pkg", "sub", "here"] → ∀ (level : Int) (source : String),
      keptPieces ["pkg", "sub", "here"] level source
        = (packagePieces ["pkg", "sub", "here"] level ++ [source]).filter (fun p => p != "")) := by
  have hparts : "" ∉ ["pkg", "sub", "here"] := by decide
  have hnames : (importedAliases guardedTree).map
      (fun a => (importOf a).fullName ["pkg", "sub", "here"])
        = [some "pkg.sub.a", some "pkg.m.b", some "c"] := by decide +kernel
  have hok : (outline (.ofSource guardedText) "here.py" ["pkg", "sub", "here"]
      guardedTree).isOk = true := by decide +kernel
  exact ⟨hparts, hnames, exists_eq_ok_of_isOk hok, importsRead_of_outline _ guardedTree⟩

end CodeOutline.Python
