/-
CodeOutline/Proofs/Python/SourceRoot.lean

What the source root has to do with the unit of a module.

From two source roots the conversion of a module gives the same error, or units that are the same
but for the package and the imports from modules that are given relative to the one that imports
(`ModulesAlike`).  The one exception is a root at which the module itself lies (`LiesAt`): then the
module has no name, which stops the conversion before anything else is looked at.  So two roots
agree exactly if both are of that kind or neither is (`agree_of_sourceRoots_iff`).
-/
import CodeOutline.Proofs.Analysis
import CodeOutline.Proofs.Python.Failures

namespace CodeOutline

open Outcome

/-! ### Units in JSON -/

/-- What the JSON of a unit without ids holds before its metadata. -/
def CodeUnit.fieldsToJson (u : CodeUnit) : Except Unordered (List (String × Json)) := do
  return [("name", ← u.name.toJson), ("type", .str u.type.code),
    ("definitions", .arr (← u.definitions.mapM (·.toJson false))),
    ("dependencies", .arr (← u.dependencies.mapM (·.nameToJson false))),
    ("documentation", ← Documentation.optionToJson u.documentation)]

theorem CodeUnit.toJson_eq_ok_iff {u : CodeUnit} {j : Json} :
    u.toJson false = .ok j ↔
      ∃ fields metadata, u.fieldsToJson = .ok fields ∧ u.metadata.toJson = .ok metadata ∧
        j = .obj (fields ++ [("metadata", metadata)]) := by
  simp only [toJson, fieldsToJson, bind_eq_ok_iff, pure_eq, Except.ok.injEq, Bool.false_eq_true,
    if_false]
  constructor
  · rintro ⟨_, rfl, name, hname, ds, hds, deps, hdeps, doc, hdoc, metadata, hmetadata, rfl⟩
    exact ⟨_, metadata, ⟨name, hname, ds, hds, deps, hdeps, doc, hdoc, rfl⟩, hmetadata, rfl⟩
  · rintro ⟨_, metadata, ⟨name, hname, ds, hds, deps, hdeps, doc, hdoc, rfl⟩, hmetadata, rfl⟩
    exact ⟨[], rfl, name, hname, ds, hds, deps, hdeps, doc, hdoc, metadata, hmetadata, rfl⟩

/-- Two units are equal but for their ids, those of their definitions, and their metadata. -/
structure CodeUnit.SameContents (u v : CodeUnit) : Prop where
  name : u.name = v.name
  type : u.type = v.type
  contents : u.definitions.map Definition.toContent = v.definitions.map Definition.toContent
  dependencies : u.dependencies = v.dependencies
  documentation : u.documentation = v.documentation

/-- Units with the same contents have the same in their JSON but for metadata. -/
theorem CodeUnit.SameContents.fieldsToJson_eq {u v : CodeUnit} (h : u.SameContents v) :
    u.fieldsToJson = v.fieldsToJson := by
  -- without ids a definition is written as its content tells
  have hwritten : ∀ ds : List Definition, ds.mapM (·.toJson false)
      = (ds.map Definition.toContent).mapM
        (fun c => Definition.toJson false ⟨c, .null⟩) := by
    intro ds
    rw [List.mapM_map]
    rfl
  rw [fieldsToJson, fieldsToJson, hwritten, hwritten, h.name, h.type, h.contents, h.dependencies,
    h.documentation]

namespace Python

/-! ### Modules at a source root -/

/-- A module lies at the source root itself, if there are both and every name of theirs can be that
of a file. -/
def LiesAt (workingDirectory : List String) (path root : Option Path) : Prop :=
  ∃ p ∈ path, ∃ r ∈ root, p.isNameable = true ∧ r.isNameable = true ∧
    p.resolve workingDirectory = r.resolve workingDirectory

instance (workingDirectory : List String) (path root : Option Path) :
    Decidable (LiesAt workingDirectory path root) :=
  inferInstanceAs (Decidable (∃ p ∈ path, ∃ r ∈ root, _ ∧ _ ∧ _))

theorem below?_eq_some_nil_iff {place target : List String} :
    Path.below? place target = some [] ↔ target = place := by
  constructor
  · intro h
    unfold Path.below? at h
    split at h
    · next hprefix =>
      obtain ⟨rest, rfl⟩ := List.isPrefixOf_iff_prefix.mp hprefix
      rw [List.drop_left, Option.some.injEq] at h
      rw [h, List.append_nil]
    · cases h
  · rintro rfl
    simpa using Path.below?_append target []

theorem liesAt_some_iff {workingDirectory : List String} {path root : Path} :
    LiesAt workingDirectory (some path) (some root) ↔
      namesBelow? workingDirectory path root = some [] := by
  simp only [LiesAt, Option.mem_some_iff, exists_eq_left', namesBelow?]
  split
  · next h =>
    rw [below?_eq_some_nil_iff]
    simp_all
  · next h =>
    simp_all

variable {workingDirectory : List String} {path root : Option Path}

/-- A module that lies at the source root has no name. -/
theorem moduleParts_of_liesAt (h : LiesAt workingDirectory path root) :
    moduleParts workingDirectory path root = .error (.noModuleName ⟨.relative, []⟩) := by
  obtain ⟨p, rfl, r, rfl, hp⟩ := h
  have hbelow : namesBelow? workingDirectory p r = some [] :=
    liesAt_some_iff.mp ⟨p, rfl, r, rfl, hp⟩
  simp [moduleParts, hbelow, Path.withoutSuffix?]

theorem exists_moduleParts (h : ¬ LiesAt workingDirectory path root) :
    ∃ parts, moduleParts workingDirectory path root = .ok parts := by
  unfold moduleParts
  split
  · next path root =>
    rw [liesAt_some_iff] at h
    split
    · exact ⟨_, rfl⟩
    · next names hnames =>
      split
      · next hsuffix =>
        -- only the path without names has no suffix to cut off
        have hnil : names = [] := by
          unfold Path.withoutSuffix? at hsuffix
          split at hsuffix
          · next hlast => exact List.getLast?_eq_none_iff.mp hlast
          · cases hsuffix
        rw [hnil] at hnames
        exact absurd hnames h
      · exact ⟨_, rfl⟩
  · exact ⟨_, rfl⟩

/-! ### Modules alike -/

/-- Entries for some imports in two modules: what comes from a module that is not given relative to
the one that imports is the same in both. -/
inductive EntriesAlike : List Import → List Json → List Json → Prop
  | nil : EntriesAlike [] [] []
  | cons {i : Import} {is : List Import} {e e' : Json} {es es' : List Json}
    (h : i.isRelative = false → e = e') (hrest : EntriesAlike is es es') :
    EntriesAlike (i :: is) (e :: es) (e' :: es')

/-- The JSON of a module with certain fields, in a certain package and with certain imports. -/
def moduleJson (fields : List (String × Json)) (language package : Json) (imports : List Json) :
    Json :=
  .obj (fields ++ [("metadata",
    .obj [("packageName", package), ("imports", .arr imports), ("language", language)])])

/-- Two modules in JSON are the same but for the package and the entries for relative imports. -/
def AlikeButNaming (imports : List Import) (j j' : Json) : Prop :=
  ∃ fields language package package' entries entries',
    j = moduleJson fields language package entries ∧
      j' = moduleJson fields language package' entries' ∧ EntriesAlike imports entries entries'

/-- Two units of a module with certain imports have the same contents, and in JSON without ids they
are the same but for the package and the entries for relative imports. -/
structure ModulesAlike (imports : List Import) (u v : CodeUnit) : Prop
    extends u.SameContents v where
  written : ∃ j j', u.toJson false = .ok j ∧ v.toJson false = .ok j' ∧ AlikeButNaming imports j j'

/-- The entry for an import in JSON. -/
def entryJson (parts : List String) (i : Import) : Json :=
  ((i.fullName parts).map Json.str).getD .null

theorem entriesAlike_map (parts parts' : List String) (imports : List Import) :
    EntriesAlike imports (imports.map (entryJson parts)) (imports.map (entryJson parts')) := by
  induction imports with
  | nil => exact .nil
  | cons i is ih =>
    refine .cons (fun h => ?_) ih
    rw [entryJson, entryJson, i.fullName_eq h parts parts']

theorem itemsToJson_imports (parts : List String) (imports : List Import) :
    Value.itemsToJson (imports.map (fun i => .textOrNull (i.fullName parts)))
      = .ok (imports.map (entryJson parts)) := by
  induction imports with
  | nil => rfl
  | cons i is ih =>
    have hentry : (Value.textOrNull (i.fullName parts)).toJson = .ok (entryJson parts i) := by
      rw [entryJson]
      cases i.fullName parts <;> rfl
    rw [List.map_cons, Value.itemsToJson, hentry, ok_bind, ih]
    rfl

/-- The metadata of a module in JSON: its package, its imports and its language. -/
theorem toJson_moduleFacts (parts : List String) (imports : List Import) :
    (Metadata.ofEntries (moduleFacts parts imports)).toJson
      = .ok (.obj [("packageName", .str (packageOf parts)),
        ("imports", .arr (imports.map (entryJson parts))), ("language", .str "python")]) := by
  have hfacts : (Metadata.ofEntries (moduleFacts parts imports)).toEntries
      = moduleFacts parts imports := by
    simp [Metadata.ofEntries, Metadata.toEntries, moduleFacts, Assoc.ofList, Assoc.insertAll,
      Assoc.insert, Scalar.render]
  rw [Metadata.toJson, hfacts, moduleFacts, Value.toJson]
  simp [Value.entriesToJson, itemsToJson_imports, Value.toJson, Scalar.toJson, Scalar.render,
    Assoc.insert, Except.map]

/-- Units with the same contents that tell the facts about a module under two names are alike. -/
theorem modulesAlike_of_moduleFacts {u v : CodeUnit} {parts parts' : List String}
    {imports : List Import} (hwritable : u.Writable) (h : u.SameContents v)
    (hu : u.metadata = Metadata.ofEntries (moduleFacts parts imports))
    (hv : v.metadata = Metadata.ofEntries (moduleFacts parts' imports)) :
    ModulesAlike imports u v := by
  obtain ⟨j, hj⟩ := hwritable.exists_toJson false
  obtain ⟨fields, metadata, hfields, hmetadata, rfl⟩ := CodeUnit.toJson_eq_ok_iff.mp hj
  rw [hu, toJson_moduleFacts, Except.ok.injEq] at hmetadata
  subst hmetadata
  have hother : v.toJson false = .ok (moduleJson fields (.str "python") (.str (packageOf parts'))
      (imports.map (entryJson parts'))) :=
    CodeUnit.toJson_eq_ok_iff.mpr
      ⟨fields, _, h.fieldsToJson_eq ▸ hfields, by rw [hv, toJson_moduleFacts], rfl⟩
  exact ⟨h, _, _, hj, hother, fields, _, _, _, _, _, rfl, rfl,
    entriesAlike_map parts parts' imports⟩

/-! ### Two source roots -/

/-- Two outlines of a tree under different names give the same error, or units with the same
contents that tell the facts about a module under these names. -/
theorem agree_outlineUnit (ids ids' : IdSource) (t : LineIndex) (name : String)
    (parts parts' : List String) (tree : Node) :
    Agree (fun u v => u.SameContents v ∧ ∃ imports, importsOf tree = .ok imports ∧
        u.metadata = Metadata.ofEntries (moduleFacts parts imports) ∧
        v.metadata = Metadata.ofEntries (moduleFacts parts' imports))
      (outline t name parts tree >>= fun o => built (o.toUnit ids))
      (outline t name parts' tree >>= fun o => built (o.toUnit ids')) := by
  unfold outline
  rcases definitions t tree with e | ds
  · exact .error e
  rcases himports : importsOf tree with e | imports
  · exact .error _
  rcases docstringOf t tree with e | documentation
  · exact .error e
  simp only [ok_bind, sound_ok, pure_eq, Outline.toUnit_eq]
  split
  · exact .ok ⟨⟨rfl, rfl, by simp, rfl, rfl⟩, imports, rfl, rfl, rfl⟩
  · exact .error _

variable {ids : IdSource} {p : Parsed Node} {tree : Node}

/-- A conversion goes on from the name of the module. -/
theorem convert_of_moduleParts {parts : List String} (htree : p.tree? = some tree)
    (h : moduleParts workingDirectory p.path root = .ok parts) :
    convert ids workingDirectory root (some p)
      = (outline (.ofSource p.source) p.unitName parts tree >>= fun o =>
        built (o.toUnit ids)).mapError (.unconverted p.unitName) := by
  simp only [convert, Parsed.requireTree_of_tree? htree, ok_bind, h]

/-- A module that lies at the source root is not converted, and no other fails in this way. -/
theorem liesAt_iff_convert (ids : IdSource) (htree : p.tree? = some tree) :
    LiesAt workingDirectory p.path root ↔
      convert ids workingDirectory root (some p)
        = .error (.unconverted p.unitName (.noModuleName ⟨.relative, []⟩)) := by
  constructor
  · intro h
    simp only [convert, Parsed.requireTree_of_tree? htree, ok_bind, moduleParts_of_liesAt h]
    rfl
  · intro herror
    by_contra h
    obtain ⟨parts, hparts⟩ := exists_moduleParts h
    obtain ⟨_, ⟨⟩, hcause | hcause⟩ := arises_of_convert htree herror
    · rw [hparts] at hcause
      cases hcause
    · -- no cause in the tree is that the module has no name
      obtain ⟨_, h⟩ | ⟨_, h⟩ | ⟨h, -⟩ := hcause.of_not_isOfPlace rfl
      all_goals cases h

/-- What a parser makes of a module that imports from its own package and a module by name. -/
def importing : Parsed Node where
  path := some (.ofString "src/pkg/m.py")
  source := "from . import a\nimport b\n".toUTF8.toList
  tree := some ⟨"", "Module", none, [], [
    ⟨"body", "ImportFrom", some ⟨1, 0, some 1, some 15⟩, [("level", .number 1)], [
      ⟨"names", "alias", some ⟨1, 14, some 1, some 15⟩, [("name", .text "a")], []⟩]⟩,
    ⟨"body", "Import", some ⟨2, 0, some 2, some 8⟩, [], [
      ⟨"names", "alias", some ⟨2, 7, some 2, some 8⟩, [("name", .text "b")], []⟩]⟩]⟩
  problems := []

end Python

end CodeOutline
