/-
CodeOutline/Proofs/Python/ImportPaths.lean

Which entries of the imports are dotted paths.

An entry is put together of a package, a module and a name.  Where each part of the package is a
word, and module and name are paths of words, so is what they are joined to, and a star may stand
last in place of a word (`IsImportPath`).  There is one exception: where all names are imported out
of a package of which the dots leave nothing, the star has a dot in front of it and nothing before
that (`LeavesNoModule`).

What words are is left open: it is enough that none is empty or holds a dot (`AreWords`).  The main
statement says when all entries are paths (`isImportPath_iff_of_convert`).
-/
import CodeOutline.Identifier
import CodeOutline.Proofs.Python.Imports

namespace CodeOutline.Python

open Outcome

variable {word : String → Prop} {root s : Node} {parts : List String} {level : Int}
  {source : String}

/-! ### Dotted paths -/

/-- Texts that can stand between the dots of a path. -/
structure AreWords (word : String → Prop) : Prop where
  ne_empty : ∀ p, word p → p ≠ ""
  dotless : ∀ p, word p → '.' ∉ p.toList

theorem AreWords.empty_notMem (h : AreWords word) (hparts : ∀ p ∈ parts, word p) : "" ∉ parts :=
  fun hmem => h.ne_empty "" (hparts "" hmem) rfl

/-- Words with single dots between them. -/
def IsDottedPath (word : String → Prop) (path : String) : Prop :=
  ∃ pieces, pieces ≠ [] ∧ (∀ p ∈ pieces, word p) ∧ path = dottedPath pieces

/-- Words with single dots between them, where a star may stand in place of the last one. -/
def IsImportPath (word : String → Prop) (entry : String) : Prop :=
  ∃ front last, (∀ p ∈ front, word p) ∧ (word last ∨ last = "*") ∧
    entry = dottedPath (front ++ [last])

theorem isDottedPath_of_word {p : String} (h : word p) : IsDottedPath word p :=
  ⟨[p], by simp, by simpa using h, String.intercalate_singleton.symm⟩

theorem IsDottedPath.append {a b : String} (ha : IsDottedPath word a) (hb : IsDottedPath word b) :
    IsDottedPath word (a ++ "." ++ b) := by
  obtain ⟨ps, hps, hwords, rfl⟩ := ha
  obtain ⟨qs, hqs, hwords', rfl⟩ := hb
  refine ⟨ps ++ qs, by simp [hps], List.forall_mem_append.mpr ⟨hwords, hwords'⟩, ?_⟩
  exact (String.intercalate_append_of_ne_nil hps hqs).symm

theorem IsDottedPath.ne_empty (h : AreWords word) {path : String} (hpath : IsDottedPath word path) :
    path ≠ "" := by
  obtain ⟨pieces, hne, hwords, rfl⟩ := hpath
  rw [ne_eq, dottedPath_eq_empty_iff, not_or]
  refine ⟨hne, ?_⟩
  rintro rfl
  exact h.ne_empty "" (hwords "" (List.mem_singleton_self _)) rfl

theorem IsDottedPath.isImportPath {path : String} (h : IsDottedPath word path) :
    IsImportPath word path := by
  obtain ⟨pieces, hne, hwords, rfl⟩ := h
  refine ⟨pieces.dropLast, pieces.getLast hne, fun p hp => hwords p (List.dropLast_subset _ hp),
    .inl (hwords _ (List.getLast_mem hne)), ?_⟩
  rw [List.dropLast_append_getLast]

theorem IsDottedPath.isImportPath_star {path : String} (h : IsDottedPath word path) :
    IsImportPath word (path ++ ".*") := by
  obtain ⟨pieces, hne, hwords, rfl⟩ := h
  refine ⟨pieces, "*", hwords, .inr rfl, ?_⟩
  rw [dottedPath_concat hne, String.append_assoc]
  rfl

/-- No path begins with a dot. -/
theorem not_isImportPath_dotStar (h : AreWords word) : ¬ IsImportPath word ".*" := by
  rintro ⟨front, last, hfront, hlast, hentry⟩
  have hchars := congrArg String.toList hentry
  cases front with
  | nil =>
    -- the only piece would hold the dot
    rw [List.nil_append, dottedPath, String.intercalate_singleton] at hentry
    rcases hlast with hlast | rfl
    · exact h.dotless last hlast (by rw [← hentry]; decide)
    · exact absurd hentry (by decide)
  | cons first front =>
    -- the first piece would begin with the dot
    have hfirst := hfront first List.mem_cons_self
    rw [List.cons_append, dottedPath, String.intercalate_cons_of_ne_nil (by simp),
      String.toList_append, String.toList_append, List.append_assoc] at hchars
    rcases hword : first.toList with - | ⟨c, cs⟩
    · exact h.ne_empty first hfirst (String.toList_eq_nil_iff.mp hword)
    · rw [hword] at hchars
      obtain ⟨hc, -⟩ := List.cons.inj hchars
      exact h.dotless first hfirst (by rw [hword, ← hc]; exact List.mem_cons_self)

/-- Identifiers are words. -/
theorem areWords_isIdentifier : AreWords (fun p => isIdentifier p = true) where
  ne_empty := by
    rintro _ hp rfl
    simp at hp
  dotless := by
    intro p hp hdot
    have hletter : Text.isLetter '.' = false := by decide +kernel
    have hdigit : Text.isDecimalDigit '.' = false := by decide +kernel
    unfold isIdentifier at hp
    split at hp
    · next hnil =>
      rw [hnil] at hdot
      cases hdot
    · next c cs hcons =>
      simp only [Bool.and_eq_true, List.all_eq_true] at hp
      rw [hcons] at hdot
      rcases List.mem_cons.mp hdot with rfl | hmem
      · simpa [hletter] using hp.1
      · simpa [hletter, hdigit] using hp.2 _ hmem

/-! ### Modules in front of names -/

theorem packagePieces_eq_nil_iff (h : 0 < level) :
    packagePieces parts level = [] ↔ parts.length ≤ level := by
  unfold packagePieces
  split
  · rw [rdrop_dropLast (by omega), List.take_eq_nil_iff]
    constructor
    · rintro (hlen | rfl)
      · omega
      · simp only [List.length_nil]
        omega
    · intro hlen
      exact .inl (by omega)
  · simp only [true_iff]
    omega

/-- The pieces in front of a name are those of a package and, if there is one, a module behind the
dots. -/
theorem isDottedPath_keptPieces (h : AreWords word) (hparts : ∀ p ∈ parts, word p)
    (hsource : source = "" ∨ IsDottedPath word source) (hne : keptPieces parts level source ≠ []) :
    IsDottedPath word (dottedPath (keptPieces parts level source)) := by
  have hempty := h.empty_notMem hparts
  have hpackage : ∀ p ∈ packagePieces parts level, word p :=
    fun p hp => hparts p (packagePieces_subset parts level hp)
  rw [keptPieces_eq_modulePieces hempty, modulePieces] at hne ⊢
  rcases hsource with rfl | hsource
  · -- the package alone
    rw [List.filter_cons_of_neg (by simp), List.filter_nil, List.append_nil] at hne ⊢
    exact ⟨_, hne, hpackage, rfl⟩
  · rw [List.filter_cons_of_pos (by simpa using hsource.ne_empty h), List.filter_nil]
    by_cases hnone : packagePieces parts level = []
    · rw [hnone, List.nil_append, dottedPath, String.intercalate_singleton]
      exact hsource
    · rw [dottedPath_concat hnone]
      exact .append ⟨_, hnone, hpackage, rfl⟩ hsource

/-- Nothing stands in front of a name if no module stands behind the dots and these leave nothing of
the package. -/
theorem keptPieces_eq_nil_iff_of_words (h : AreWords word) (hparts : ∀ p ∈ parts, word p)
    (hlevel : source = "" → 0 < level) :
    keptPieces parts level source = [] ↔ source = "" ∧ parts.length ≤ level := by
  have hempty := h.empty_notMem hparts
  rw [keptPieces_eq_modulePieces hempty, modulePieces, List.append_eq_nil_iff]
  by_cases hsource : source = ""
  · simp [hsource, packagePieces_eq_nil_iff (hlevel hsource)]
  · simp [hsource]

/-! ### Entries -/

/-- An import statement names modules and what it imports out of them by paths.  Behind dots a
module may be missing, and a star may stand for all names. -/
structure IsNamed (word : String → Prop) (s : Node) : Prop where
  whole : s.kind = "Import" → ∀ a ∈ s.places "names",
    ∃ name, a.text? "name" = some name ∧ IsDottedPath word name
  member : s.kind = "ImportFrom" → ∀ a ∈ s.places "names",
    ∃ name, a.text? "name" = some name ∧ (name = "*" ∨ IsDottedPath word name)
  source : s.kind = "ImportFrom" →
    (∃ path, s.text? "module" = some path ∧ IsDottedPath word path) ∨
      s.text? "module" = none ∧ ∃ level, s.number? "level" = some level ∧ 0 < level

theorem isNamed_of_not_isImport (h : isImport s = false) : IsNamed word s := by
  simp only [isImport, Bool.or_eq_false_iff, beq_eq_false_iff_ne] at h
  exact ⟨fun hkind => absurd hkind h.1, fun hkind => absurd hkind h.2,
    fun hkind => absurd hkind h.2⟩

/-- A statement imports all names out of a package of which the dots leave nothing. -/
def LeavesNoModule (parts : List String) (a : Node × Node) : Prop :=
  a.1.kind = "ImportFrom" ∧ a.2.text? "name" = some "*" ∧ a.1.text? "module" = none ∧
    ∃ level ∈ a.1.number? "level", parts.length ≤ level

instance (parts : List String) (a : Node × Node) : Decidable (LeavesNoModule parts a) :=
  inferInstanceAs (Decidable (_ ∧ _ ∧ _ ∧ _))

theorem mem_places_of_mem_aliasesOf {a : Node × Node} (h : a ∈ aliasesOf s) :
    a.1 = s ∧ a.2 ∈ s.places "names" := by
  unfold aliasesOf at h
  split at h
  · obtain ⟨a, ha, rfl⟩ := List.mem_map.mp h
    exact ⟨rfl, ha⟩
  · cases h

/-- The module of a statement is a path, or missing behind dots. -/
theorem IsNamed.text_module (hs : IsNamed word s) (hkind : s.kind = "ImportFrom") :
    IsDottedPath word (s.text "module") ∨
      s.text? "module" = none ∧ s.text "module" = "" ∧
        ∃ level, s.number? "level" = some level ∧ 0 < level := by
  rcases hs.source hkind with ⟨path, hpath, hwords⟩ | ⟨hnone, hlevel⟩
  · left
    rw [Node.text, hpath]
    exact hwords
  · exact .inr ⟨hnone, by rw [Node.text, hnone]; rfl, hlevel⟩

/-- What stands in front of a name is a path or nothing; nothing only where there is no module behind
the dots and these leave nothing of the package. -/
theorem IsNamed.keptPieces (hs : IsNamed word s) (h : AreWords word)
    (hparts : ∀ p ∈ parts, word p) (hkind : s.kind = "ImportFrom")
    (hlevel : s.number? "level" = some level) :
    (keptPieces parts level (s.text "module") = [] ↔
      s.text? "module" = none ∧ parts.length ≤ level) ∧
    (keptPieces parts level (s.text "module") ≠ [] →
      IsDottedPath word (dottedPath (keptPieces parts level (s.text "module")))) := by
  rcases hs.text_module hkind with hpath | ⟨hnone, htext, level', hlevel', hpos⟩
  · have hsome : s.text? "module" ≠ none := by
      intro hnone
      exact hpath.ne_empty h (by rw [Node.text, hnone]; rfl)
    refine ⟨?_, isDottedPath_keptPieces h hparts (.inr hpath)⟩
    rw [keptPieces_eq_nil_iff_of_words h hparts fun hempty => absurd hempty (hpath.ne_empty h)]
    exact ⟨fun hempty => absurd hempty.1 (hpath.ne_empty h), fun hempty => absurd hempty.1 hsome⟩
  · obtain rfl : level' = level := Option.some.inj (hlevel'.symm.trans hlevel)
    refine ⟨?_, isDottedPath_keptPieces h hparts (.inl htext)⟩
    rw [keptPieces_eq_nil_iff_of_words h hparts fun _ => hpos]
    simp [hnone, htext]

/-- The entry for an alias is a path, or a star behind a dot where no module is left. -/
theorem IsEntry.isImportPath {a : Node × Node} {entry : Option String}
    (he : IsEntry parts a.1 a.2 entry) (h : AreWords word) (hparts : ∀ p ∈ parts, word p)
    (hs : IsNamed word a.1) (ha : a.2 ∈ a.1.places "names") :
    ∃ path, entry = some path ∧ (LeavesNoModule parts a → path = ".*") ∧
      (¬ LeavesNoModule parts a → IsImportPath word path) := by
  cases he with
  | whole hkind =>
    obtain ⟨name, hname, hpath⟩ := hs.whole hkind a.2 ha
    refine ⟨name, hname, fun hbare => ?_, fun _ => hpath.isImportPath⟩
    have hother := hbare.1
    rw [hkind] at hother
    exact absurd hother (by decide)
  | @star level hkind hlevel hname =>
    obtain ⟨hnil, hpath⟩ := hs.keptPieces h hparts hkind hlevel
    refine ⟨_, rfl, ?_, ?_⟩
    · rintro ⟨-, -, hnone, level', hlevel', hle⟩
      obtain rfl : level' = level := Option.some.inj (hlevel'.symm.trans hlevel)
      rw [hnil.mpr ⟨hnone, hle⟩]
      rfl
    · intro hbare
      refine (hpath fun hempty => hbare ?_).isImportPath_star
      obtain ⟨hnone, hle⟩ := hnil.mp hempty
      exact ⟨hkind, hname, hnone, level, hlevel, hle⟩
  | @member level name hkind hlevel hname hstar =>
    obtain ⟨name', hname', hor⟩ := hs.member hkind a.2 ha
    obtain rfl : name' = name := Option.some.inj (hname'.symm.trans hname)
    have hword := hor.resolve_left hstar
    refine ⟨_, rfl, fun hbare => ?_, fun _ => IsDottedPath.isImportPath ?_⟩
    · exact absurd (Option.some.inj (hname.symm.trans hbare.2.1)) hstar
    · by_cases hempty : Python.keptPieces parts level (a.1.text "module") = []
      · rw [hempty, List.nil_append, dottedPath, String.intercalate_singleton]
        exact hword
      · rw [dottedPath_concat hempty]
        exact ((hs.keptPieces h hparts hkind hlevel).2 hempty).append hword
  | nameless hkind _ hname =>
    obtain ⟨name, hname', -⟩ := hs.member hkind a.2 ha
    rw [hname] at hname'
    cases hname'

/-! ### Modules -/

theorem exists_forall₂_of_some {α β : Type} {R : α → Option β → Prop} {S : α → β → Prop}
    {xs : List α} {es : List (Option β)} (h : List.Forall₂ R xs es)
    (hsome : ∀ x ∈ xs, ∀ e, R x e → ∃ y, e = some y ∧ S x y) :
    ∃ ys, es = ys.map some ∧ List.Forall₂ S xs ys := by
  induction h with
  | nil => exact ⟨[], rfl, .nil⟩
  | @cons x e xs es hx _ ih =>
    obtain ⟨y, rfl, hy⟩ := hsome x List.mem_cons_self e hx
    obtain ⟨ys, rfl, hys⟩ := ih fun x' hx' => hsome x' (List.mem_cons_of_mem _ hx')
    exact ⟨y :: ys, rfl, .cons hy hys⟩

/-- The entries of a module are those of its aliases, one by one. -/
theorem exists_entries_of_convert {ids : IdSource} {workingDirectory : List String}
    {sourceRoot : Option Path} {p : Parsed Node} {u : CodeUnit} (h : AreWords word)
    (hroot : p.tree? = some root) (hnamed : ∀ s ∈ root.preorder, IsNamed word s)
    (hparts : moduleParts workingDirectory p.path sourceRoot = .ok parts)
    (hwords : ∀ part ∈ parts, word part)
    (hu : convert ids workingDirectory sourceRoot (some p) = .ok u) :
    ∃ entries : List String, u.metadata.get? "imports" = some (.texts entries) ∧
      List.Forall₂ (fun a e => (LeavesNoModule parts a → e = ".*") ∧
        (¬ LeavesNoModule parts a → IsImportPath word e)) (importedAliases root) entries := by
  obtain ⟨root', parts', o, hroot', hparts', ho, hunit⟩ := convert_eq_ok_iff.mp hu
  obtain rfl : root = root' := Option.some.inj (hroot.symm.trans hroot')
  obtain rfl : parts = parts' := Except.ok.inj (hparts.symm.trans hparts')
  obtain ⟨read, hread, hentries⟩ := (importsRead_of_toUnit ho hunit).imports
  obtain ⟨entries, rfl, hpaths⟩ := exists_forall₂_of_some hentries fun a ha e he => by
    obtain ⟨s, hs, ha⟩ := List.mem_flatMap.mp ha
    obtain ⟨rfl, hplace⟩ := mem_places_of_mem_aliasesOf ha
    exact he.isImportPath h hwords (hnamed _ hs) hplace
  exact ⟨entries, by rw [hread, List.map_map]; rfl, hpaths⟩

/-- Where modules and names are paths of words, and the parts of the module that imports are words,
every entry of its imports is a path, in which a star may stand last, or a star behind a dot.  It is
the latter exactly where all names are imported out of a package of which the dots leave nothing,
and so all entries are paths if and only if there is no such import. -/
theorem isImportPath_iff_of_convert {ids : IdSource} {workingDirectory : List String}
    {sourceRoot : Option Path} {p : Parsed Node} {u : CodeUnit} (h : AreWords word)
    (hroot : p.tree? = some root) (hnamed : ∀ s ∈ root.preorder, IsNamed word s)
    (hparts : moduleParts workingDirectory p.path sourceRoot = .ok parts)
    (hwords : ∀ part ∈ parts, word part)
    (hu : convert ids workingDirectory sourceRoot (some p) = .ok u) :
    ∃ entries : List String, u.metadata.get? "imports" = some (.texts entries) ∧
      List.Forall₂ (fun a e => (LeavesNoModule parts a → e = ".*") ∧
        (¬ LeavesNoModule parts a → IsImportPath word e)) (importedAliases root) entries ∧
      ((∀ e ∈ entries, IsImportPath word e) ↔
        ∀ a ∈ importedAliases root, ¬ LeavesNoModule parts a) := by
  obtain ⟨entries, hentries, hpaths⟩ :=
    exists_entries_of_convert h hroot hnamed hparts hwords hu
  refine ⟨entries, hentries, hpaths, ?_⟩
  constructor
  · intro hall a ha hbare
    obtain ⟨e, he, hdot, -⟩ := exists_of_forall₂_of_mem hpaths.flip ha
    exact not_isImportPath_dotStar h (hdot hbare ▸ hall e he)
  · intro hnone e he
    obtain ⟨a, ha, -, hpath⟩ := exists_of_forall₂_of_mem hpaths he
    exact hpath (hnone a ha)

/-! ### All names of the own package -/

/-- The import statements of a module: of a module, of a name out of the package around its own, and
of all names of its own package. -/
def starredImports : List Node :=
  [⟨"body", "Import", some ⟨1, 0, some 1, some 10⟩, [], [
      ⟨"names", "alias", some ⟨1, 7, some 1, some 10⟩, [("name", .text "a.b")], []⟩]⟩,
    ⟨"body", "ImportFrom", some ⟨2, 0, some 2, some 17⟩,
      [("level", .number 2), ("module", .text "c")], [
      ⟨"names", "alias", some ⟨2, 16, some 2, some 17⟩, [("name", .text "d")], []⟩]⟩,
    ⟨"body", "ImportFrom", some ⟨3, 0, some 3, some 15⟩, [("level", .number 1)], [
      ⟨"names", "alias", some ⟨3, 14, some 3, some 15⟩, [("name", .text "*")], []⟩]⟩]

/-- The tree of a module with these statements. -/
def starredTree : Node := ⟨"", "Module", none, [], starredImports⟩

/-- What a parser makes of the text of `starredTree`. -/
def starred : Parsed Node where
  path := some (.ofString "pkg/m.py")
  source := "import a.b\nfrom ..c import d\nfrom . import *\n".toUTF8.toList
  tree := some starredTree
  problems := []

/-- The statements of `starredTree` name what they import by paths of identifiers. -/
theorem isNamed_starredTree :
    ∀ s ∈ starredTree.preorder, IsNamed (fun p => isIdentifier p = true) s := by
  have ha : isIdentifier "a" = true := by decide +kernel
  have hb : isIdentifier "b" = true := by decide +kernel
  have hc : isIdentifier "c" = true := by decide +kernel
  have hd : isIdentifier "d" = true := by decide +kernel
  have himports : starredTree.preorder.filter isImport = starredImports := rfl
  intro s hs
  by_cases himport : isImport s = true
  · have hs : s ∈ starredImports := himports ▸ List.mem_filter.mpr ⟨hs, himport⟩
    simp only [starredImports, List.mem_cons, List.not_mem_nil, or_false] at hs
    rcases hs with rfl | rfl | rfl
    · refine ⟨fun _ => List.forall_mem_singleton.mpr ⟨"a.b", rfl, ["a", "b"], ?_⟩,
        fun hkind => absurd hkind (by decide), fun hkind => absurd hkind (by decide)⟩
      exact ⟨by simp, by simp [ha, hb], by decide +kernel⟩
    · exact ⟨fun hkind => absurd hkind (by decide),
        fun _ => List.forall_mem_singleton.mpr ⟨"d", rfl, .inr (isDottedPath_of_word hd)⟩,
        fun _ => .inl ⟨"c", rfl, isDottedPath_of_word hc⟩⟩
    · exact ⟨fun hkind => absurd hkind (by decide),
        fun _ => List.forall_mem_singleton.mpr ⟨"*", rfl, .inl rfl⟩,
        fun _ => .inr ⟨rfl, 1, rfl, by decide⟩⟩
  · exact isNamed_of_not_isImport (by simpa using himport)

/-- Inside a package all entries are paths. -/
theorem isImportPath_iff_of_convert_starred :
    AreWords (fun p => isIdentifier p = true) ∧
    (∀ s ∈ starredTree.preorder, IsNamed (fun p => isIdentifier p = true) s) ∧
    moduleParts [] starred.path (some (.ofString ".")) = .ok ["pkg", "m"] ∧
    (∀ part ∈ ["pkg", "m"], isIdentifier part = true) ∧
    ∃ u entries, convert toString [] (some (.ofString ".")) (some starred) = .ok u ∧
      u.metadata.get? "imports" = some (.texts entries) ∧
      ∀ e ∈ entries, IsImportPath (fun p => isIdentifier p = true) e := by
  have hparts : moduleParts [] starred.path (some (.ofString ".")) = .ok ["pkg", "m"] := by
    decide +kernel
  have hwords : ∀ part ∈ ["pkg", "m"], isIdentifier part = true := by decide +kernel
  have hok : (convert toString [] (some (.ofString ".")) (some starred)).isOk = true := by
    decide +kernel
  obtain ⟨u, hu⟩ := exists_eq_ok_of_isOk hok
  obtain ⟨entries, hentries, -, hiff⟩ := isImportPath_iff_of_convert areWords_isIdentifier
    (rfl : starred.tree? = some starredTree) isNamed_starredTree hparts hwords hu
  have hkept : ∀ a ∈ importedAliases starredTree, ¬ LeavesNoModule ["pkg", "m"] a := by
    decide +kernel
  exact ⟨areWords_isIdentifier, isNamed_starredTree, hparts, hwords, u, entries, hu, hentries,
    hiff.mpr hkept⟩

/-- Not all entries are paths: in a module without a package nothing is left by one dot. -/
theorem not_forall_isImportPath :
    ¬ ∀ (p : Parsed Node) (root : Node) (u : CodeUnit), p.tree? = some root →
      (∀ s ∈ root.preorder, IsNamed (fun p => isIdentifier p = true) s) →
      convert toString [] none (some p) = .ok u →
      ∃ entries : List String, u.metadata.get? "imports" = some (.texts entries) ∧
        ∀ e ∈ entries, IsImportPath (fun p => isIdentifier p = true) e := by
  intro hall
  have hok : (convert toString [] none (some starred)).isOk = true := by decide +kernel
  have hbare : ∃ a ∈ importedAliases starredTree, LeavesNoModule [] a := by decide +kernel
  obtain ⟨u, hu⟩ := exists_eq_ok_of_isOk hok
  obtain ⟨entries, hentries, hwords⟩ := hall starred starredTree u rfl isNamed_starredTree hu
  have hparts : moduleParts [] starred.path none = .ok [] := rfl
  obtain ⟨entries', hentries', hpaths⟩ := exists_entries_of_convert areWords_isIdentifier
    (rfl : starred.tree? = some starredTree) isNamed_starredTree hparts (by simp) hu
  -- metadata tell the entries
  have htexts : Value.texts entries = Value.texts entries' :=
    Option.some.inj (hentries.symm.trans hentries')
  have hsame : entries = entries' :=
    List.map_injective_iff.mpr (fun _ _ h => Scalar.text.inj (Value.scalar.inj h))
      (Value.list.inj htexts)
  obtain ⟨a, ha, hbare⟩ := hbare
  obtain ⟨e, he, hdot, -⟩ := exists_of_forall₂_of_mem hpaths.flip ha
  exact not_isImportPath_dotStar areWords_isIdentifier (hdot hbare ▸ hwords e (hsame ▸ he))

end CodeOutline.Python
