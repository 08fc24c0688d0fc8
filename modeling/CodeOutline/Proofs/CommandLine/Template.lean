/-
CodeOutline/Proofs/CommandLine/Template.lean

Where foreign text stands in what the commands print.

What a command prints is markup of its own with texts in between that come from a file or from its
path.  A template tells the two apart (`Piece`), and the layout of a run holds the templates of all
that it prints and complains (`Run.layout`).  Every run prints its layout, with the names of units
and packages, the types that declare something and the names in headings put in as they are, and
all other foreign text escaped (`Run.follows_asPut`).
-/
import CodeOutline.Proofs.CommandLine.Analyze
import CodeOutline.Proofs.Tags

namespace CodeOutline.CommandLine

open Outcome Text

/-! ### Templates -/

/-- What a text that comes from a file or from its path is. -/
inductive Origin where
  | path
  | failure
  | unit
  | package
  /-- The name of a definition in a table. -/
  | listed
  | declaringType
  /-- The name of a definition above its documentation. -/
  | headed
  | description
  | tag
  /-- The fact that says what a tag is about. -/
  | subject
  | value
  deriving DecidableEq

/-- The texts that the commands put into markup as they are. -/
def Origin.isBare : Origin → Bool
  | .unit | .package | .declaringType | .headed => true
  | _ => false

/-- What a guard makes of foreign text before it goes into markup. -/
abbrev Guard := Origin → String → String

/-- The guard that escapes everything. -/
def escaped : Guard := fun _ s => Markup.escape s

/-- The guard of the commands. -/
def asPut : Guard := fun o s => if o.isBare then s else Markup.escape s

/-- A stretch of a template. -/
inductive Piece where
  | fixed (markup : String)
  | foreign (o : Origin) (text : String)
  deriving DecidableEq

/-- The markup of a stretch. -/
def Piece.fill (g : Guard) : Piece → String
  | .fixed markup => markup
  | .foreign o text => g o text

/-- Markup with foreign text in between. -/
abbrev Template := List Piece

/-- The markup of a template. -/
def Template.fill (g : Guard) : Template → String
  | [] => ""
  | p :: t => p.fill g ++ fill g t

/-- One thing that is printed, as templates. -/
inductive Sheet where
  | line (t : Template)
  | table (title : Template) (columns : List String) (rows : List (List Template))

/-- What is printed for a sheet. -/
def Sheet.fill (g : Guard) : Sheet → Output
  | .line t => .line (t.fill g)
  | .table title columns rows =>
    .table ⟨title.fill g, columns, rows.map fun cells => cells.map (·.fill g)⟩

/-- The pieces of a sheet. -/
def Sheet.pieces : Sheet → List Piece
  | .line t => t
  | .table title _ rows => title ++ rows.flatten.flatten

/-- All that a run prints and complains, as templates. -/
structure Layout where
  console : List Sheet := []
  errors : List Template := []

/-- The pieces of a layout. -/
def Layout.pieces (l : Layout) : List Piece := l.console.flatMap Sheet.pieces ++ l.errors.flatten

/-! ### The templates of the commands -/

/-- A text with a fixed one for it where it is empty. -/
def textOr (o : Origin) (text default : String) : Template :=
  if text = "" then [.fixed default] else [.foreign o text]

/-- A text with markup before it, or nothing where it is empty. -/
def behind (markup : String) (o : Origin) (text : String) : Template :=
  if text = "" then [] else [.fixed markup, .foreign o text]

/-- The title of the table of a unit. -/
def titleTemplate (u : CodeUnit) : Template :=
  .foreign .unit u.name.shown :: .fixed " [dim](" ::
    (textOr .package (factOr u.metadata "packageName" "") "default package" ++ [.fixed ")[/]"])

/-- The row of a definition. -/
def rowTemplates (d : Definition) : List Template :=
  [[.fixed d.kind.code], [.foreign .listed d.name.shown], [.fixed d.scope.level.code],
    [.fixed s!"{d.scope.start.line}-{d.scope.stop.line}"],
    textOr .declaringType (factOr d.metadata "declaringType" "") ""]

/-- The table of a unit. -/
def unitSheet (u : CodeUnit) : Sheet :=
  .table (titleTemplate u) ["Kind", "Name", "Scope", "Lines", "Declared in"]
    (u.definitions.map rowTemplates)

/-- The line of a tag. -/
def tagTemplate (indent : String) (t : DocumentationTag) : Template :=
  .fixed indent :: .fixed "[yellow]" :: .fixed "@" :: .foreign .tag t.name.shown ::
    (behind " " .subject (factOr t.attributes "name" "") ++
      .fixed "[/]" :: behind " " .value t.value.shown)

/-- The lines of documentation. -/
def documentationTemplates (indent : String) (d : Documentation) : List Template :=
  (splitLines d.description.shown.toList).map
      (fun l => [.fixed indent, .foreign .description (String.ofList l)]) ++
    d.tags.map (tagTemplate indent)

/-- The lines about a definition. -/
def definitionTemplates (d : Definition) (doc : Documentation) : List Template :=
  [.fixed "\n[bold cyan]", .foreign .headed d.name.shown, .fixed ("[/] (" ++ d.kind.code ++ ")")] ::
    documentationTemplates "  " doc

/-- The lines about the unit itself. -/
def ownTemplates (u : CodeUnit) : List Template :=
  match u.documentation with
  | none => []
  | some doc => [.fixed "[bold]", .foreign .unit u.name.shown, .fixed "[/]"] ::
      documentationTemplates "  " doc

/-- The lines about the definitions of a unit. -/
def documentedTemplates (u : CodeUnit) : List Template :=
  match u.documented with
  | [] => [[.fixed "[dim]No documented definitions in ", .foreign .unit u.name.shown, .fixed "[/]"]]
  | ds => ds.flatMap (fun d => definitionTemplates d.1 d.2)

/-- The lines about the documentation of a unit. -/
def unitTemplates (u : CodeUnit) : List Template := ownTemplates u ++ documentedTemplates u

/-- The complaint about a file. -/
def errorTemplate (path : Path) (e : AnalysisError) : Template :=
  [.fixed "[red]Error:[/red] ", .foreign .path path.text, .fixed ": ", .foreign .failure e.message]

/-- What is printed for an outcome. -/
def outcomeSheet? : Outcome → Option Sheet
  | (_, .ok u) => some (unitSheet u)
  | (_, .error _) => none

/-- The complaint about an outcome. -/
def outcomeTemplate? : Outcome → Option Template
  | (_, .ok _) => none
  | (path, .error e) => some (errorTemplate path e)

/-- What is printed about the documentation of a file. -/
def docsLayout (json : Bool) : Outcome → Layout
  | (path, .error e) => { errors := [errorTemplate path e] }
  | (_, .ok u) => if json then {} else { console := (unitTemplates u).map .line }

/-- A command with what it is run on. -/
structure Run where
  workspace : Workspace
  ids : Nat → IdSource
  command : Command

/-- The layout of a run. -/
def Run.layout (r : Run) : Layout :=
  match r.command with
  | .analyze paths json root =>
    let os := outcomes r.workspace r.ids root 0 paths
    if json then {} else ⟨os.filterMap outcomeSheet?, os.filterMap outcomeTemplate?⟩
  | .docs path json => docsLayout json (path, unitOf r.workspace (r.ids 0) none path)
  | .languages json =>
    if json then {}
    else { console := Registry.bundled.extensions.map fun e => .line [.fixed ("." ++ e)] }

/-- A run has an answer, which prints and complains what its layout says, with foreign text behind a
guard. -/
def Run.Follows (r : Run) (g : Guard) : Prop :=
  ∃ a, r.command.run r.workspace r.ids = .ok a ∧
    a.console = r.layout.console.map (·.fill g) ∧ a.errors = r.layout.errors.map (·.fill g)

/-! ### What the commands print -/

@[simp] theorem Template.fill_nil (g : Guard) : Template.fill g [] = "" := rfl

@[simp] theorem Template.fill_cons (g : Guard) (p : Piece) (t : Template) :
    Template.fill g (p :: t) = p.fill g ++ Template.fill g t := rfl

@[simp] theorem Template.fill_append (g : Guard) (s t : Template) :
    Template.fill g (s ++ t) = Template.fill g s ++ Template.fill g t := by
  induction s with
  | nil => exact String.empty_append.symm
  | cons p s ih => rw [List.cons_append, fill_cons, ih, fill_cons, String.append_assoc]

@[simp] theorem Piece.fill_fixed (g : Guard) (markup : String) :
    (Piece.fixed markup).fill g = markup := rfl

@[simp] theorem Piece.fill_foreign (g : Guard) (o : Origin) (text : String) :
    (Piece.foreign o text).fill g = g o text := rfl

theorem fill_textOr {o : Origin} (h : o.isBare = true) (text default : String) :
    (textOr o text default).fill asPut = if text = "" then default else text := by
  unfold textOr
  split <;> simp [asPut, h]

theorem factOr_eq (m : Metadata) (key default : String) :
    factOr m key default = if factOr m key "" = "" then default else factOr m key "" := by
  unfold factOr
  split
  · rfl
  · next s _ => by_cases hs : s = "" <;> simp [hs]

theorem fill_titleTemplate (u : CodeUnit) : (titleTemplate u).fill asPut = unitTitle u := by
  have hpackage := fill_textOr (rfl : Origin.package.isBare = true)
    (factOr u.metadata "packageName" "") "default package"
  rw [← factOr_eq] at hpackage
  have htitle : unitTitle u = u.name.shown ++ " [dim]("
      ++ factOr u.metadata "packageName" "default package" ++ ")[/]" := rfl
  simp [titleTemplate, htitle, hpackage, asPut, Origin.isBare, String.append_assoc]

theorem fill_rowTemplates (d : Definition) :
    (rowTemplates d).map (·.fill asPut) = definitionRow d := by
  have hdeclaring := fill_textOr (rfl : Origin.declaringType.isBare = true)
    (factOr d.metadata "declaringType" "") ""
  rw [← factOr_eq] at hdeclaring
  simp [rowTemplates, definitionRow, hdeclaring, asPut, Origin.isBare]

theorem fill_unitSheet (u : CodeUnit) : (unitSheet u).fill asPut = .table (unitTable u) := by
  have hrows : (u.definitions.map rowTemplates).map (fun cells => cells.map (·.fill asPut))
      = u.definitions.map definitionRow := by
    rw [List.map_map]
    exact List.map_congr_left fun d _ => fill_rowTemplates d
  rw [unitSheet, Sheet.fill, fill_titleTemplate, hrows]
  rfl

theorem fill_behind {o : Origin} (h : o.isBare = false) (markup text : String) :
    (behind markup o text).fill asPut = if text = "" then "" else markup ++ Markup.escape text := by
  unfold behind
  split <;> simp [asPut, h]

/-- A label is escaped as a whole, which is to escape the name and what it is about. -/
theorem escape_tagLabel {t : DocumentationTag} (h : t.Tidy) :
    Markup.escape (tagLabel t) = "@" ++ (Markup.escape t.name.shown ++
      (behind " " .subject (factOr t.attributes "name" "")).fill asPut) := by
  have hname := Markup.escape_of_unmarked h.name
  have hat : Markup.Unmarked "@".toList := List.forall_mem_singleton.mpr ⟨by decide, by decide⟩
  have hfront : Markup.Unmarked ("@" ++ t.name.shown).toList := by
    rw [String.toList_append]
    exact List.forall_mem_append.mpr ⟨hat, h.name⟩
  rw [fill_behind rfl, hname]
  unfold tagLabel
  split
  · next e =>
    rw [if_pos e, String.append_empty]
    exact Markup.escape_of_unmarked hfront
  · next hne =>
    have hblank : Markup.Unmarked " ".toList :=
      List.forall_mem_singleton.mpr ⟨by decide, by decide⟩
    have hspace : Markup.Unmarked ("@" ++ t.name.shown ++ " ").toList := by
      rw [String.toList_append]
      exact List.forall_mem_append.mpr ⟨hfront, hblank⟩
    rw [if_neg hne, Markup.escape_append hspace]
    simp only [String.append_assoc]

/-- Behind the end of a style, the blanks at the end of a line are those of what comes then. -/
theorem trimmed_styled (front value : String) (h : trimRight value.toList = value.toList) :
    String.ofList (trimRight (front ++ "[/] " ++ value).toList)
      = front ++ "[/]" ++ if value = "" then "" else " " ++ value := by
  rw [← String.toList_inj, String.toList_ofList]
  split
  · next e =>
    -- the space goes, and the bracket before it is no blank
    have hsplit : (front ++ "[/] " ++ value).toList = (front.toList ++ "[/]".toList) ++ [' '] := by
      simp [e]
    rw [hsplit, trimRight_append_of_blank _ (List.forall_mem_singleton.mpr rfl),
      trimRight_append_of_ne_nil _ (by decide)]
    simp
    rfl
  · next hne =>
    have hvalue : trimRight value.toList ≠ [] := by
      rw [h]
      simpa using hne
    rw [String.toList_append, trimRight_append_of_ne_nil _ hvalue, h]
    simp

theorem fill_tagTemplate (indent : String) {t : DocumentationTag} (h : t.Tidy) :
    (tagTemplate indent t).fill asPut = tagLine indent t := by
  have hempty : Markup.escape t.value.shown = "" ↔ t.value.shown = "" := by
    constructor
    · intro he
      have hlength := Markup.length_le_escape t.value.shown
      rw [he] at hlength
      simpa using hlength
    · intro he
      rw [he]
      rfl
  have hvalue := fill_behind (rfl : Origin.value.isBare = false) " " t.value.shown
  have hline : tagLine indent t = indent ++ "[yellow]" ++ Markup.escape (tagLabel t) ++ "[/]"
      ++ if Markup.escape t.value.shown = "" then "" else " " ++ Markup.escape t.value.shown :=
    trimmed_styled _ _ (Markup.trimRight_escape h.value)
  simp only [hempty, ← hvalue] at hline
  rw [hline, escape_tagLabel h]
  simp [tagTemplate, asPut, Origin.isBare, String.append_assoc]

/-! ### Documentation -/

theorem fill_documentationTemplates (indent : String) {d : Documentation} (h : d.Tidy) :
    (documentationTemplates indent d).map (·.fill asPut) = documentationLines indent d := by
  have htags : (d.tags.map (tagTemplate indent)).map (·.fill asPut)
      = d.tags.map (tagLine indent) := by
    rw [List.map_map]
    exact List.map_congr_left fun t ht => fill_tagTemplate indent (h t ht)
  rw [documentationTemplates, List.map_append, htags, documentationLines, List.map_map]
  simp [asPut, Origin.isBare]

theorem fill_definitionTemplates (d : Definition) {doc : Documentation} (h : doc.Tidy) :
    (definitionTemplates d doc).map (·.fill asPut) = definitionLines d doc := by
  rw [definitionTemplates, List.map_cons, fill_documentationTemplates _ h]
  simp [definitionLines, asPut, Origin.isBare, String.append_assoc]

theorem tidy_of_mem_documented {u : CodeUnit} (h : u.Tidy) : ∀ d ∈ u.documented, d.2.Tidy := by
  intro d hd
  obtain ⟨c, hc, hdoc⟩ := List.mem_filterMap.mp hd
  obtain ⟨doc, he, rfl⟩ := Option.map_eq_some_iff.mp hdoc
  exact h.definitions c hc doc he

theorem fill_unitTemplates {u : CodeUnit} (h : u.Tidy) :
    (unitTemplates u).map (·.fill asPut) = documentationOutput u := by
  have hunit := h.unit
  have hds : (u.documented.flatMap fun d => definitionTemplates d.1 d.2).map (·.fill asPut)
      = u.documented.flatMap fun d => definitionLines d.1 d.2 := by
    rw [List.map_flatMap]
    exact List.flatMap_congr fun d hd =>
      fill_definitionTemplates d.1 (tidy_of_mem_documented h d hd)
  have hown : (ownTemplates u).map (·.fill asPut) = match u.documentation with
      | none => []
      | some doc => ("[bold]" ++ u.name.shown ++ "[/]") :: documentationLines "  " doc := by
    unfold ownTemplates
    rcases e : u.documentation with - | doc
    · rfl
    · simp [fill_documentationTemplates "  " (hunit doc e), asPut, Origin.isBare,
        String.append_assoc]
  rw [unitTemplates, List.map_append, hown, documentationOutput, documentedTemplates]
  rcases e : u.documented with - | ⟨d, ds⟩
  · refine congrArg (_ ++ ·) ?_
    simp [asPut, Origin.isBare, String.append_assoc]
  · rw [e] at hds
    exact congrArg (_ ++ ·) hds

/-! ### Runs -/

theorem fill_errorTemplate (path : Path) (e : AnalysisError) :
    (errorTemplate path e).fill asPut = errorLine path e := by
  have hline : errorLine path e = "[red]Error:[/red] " ++ Markup.escape path.text ++ ": "
      ++ Markup.escape e.message := rfl
  simp [errorTemplate, hline, asPut, Origin.isBare, String.append_assoc]

theorem tidy_of_unitOf {w : Workspace} {ids : IdSource} {root : Option Path} {path : Path}
    {u : CodeUnit} (h : unitOf w ids root path = .ok u) : u.Tidy :=
  w.tidy_of_unitOf? h

theorem map_outcomeSheet? (os : List Outcome) :
    (os.filterMap outcomeSheet?).map (·.fill asPut) = os.filterMap outcomeTable? := by
  rw [List.map_filterMap]
  refine List.filterMap_congr fun o _ => ?_
  obtain ⟨path, _ | u⟩ := o
  · rfl
  · exact congrArg some (fill_unitSheet u)

theorem map_outcomeTemplate? (os : List Outcome) :
    (os.filterMap outcomeTemplate?).map (·.fill asPut) = os.filterMap outcomeError? := by
  rw [List.map_filterMap]
  refine List.filterMap_congr fun o _ => ?_
  obtain ⟨path, e | _⟩ := o
  · exact congrArg some (fill_errorTemplate path e)
  · rfl

/-- Every run prints its layout, with foreign text behind the guard of the commands. -/
theorem Run.follows_asPut (r : Run) : r.Follows asPut := by
  obtain ⟨w, ids, c⟩ := r
  cases c with
  | analyze paths json root =>
    cases json with
    | true =>
      obtain ⟨js, hjs⟩ := exists_entries w root ids 0 paths
      exact ⟨_, lists_outcomes hjs, rfl, rfl⟩
    | false =>
      exact ⟨_, prints_outcomes w root ids paths, (map_outcomeSheet? _).symm,
        (map_outcomeTemplate? _).symm⟩
  | docs path json =>
    rcases hunit : unitOf w (ids 0) none path with e | u
    · refine ⟨{ exitCode := 1, errors := [errorLine path e] }, ?_, ?_, ?_⟩
      · simp [Command.run, documentationAnswer, hunit]
      · simp [Run.layout, docsLayout, hunit]
      · simp [Run.layout, docsLayout, hunit, fill_errorTemplate]
    · cases json with
      | true =>
        obtain ⟨j, hj⟩ := (writable_of_unitOf hunit).exists_documentationToJson
        refine ⟨{ json := some j }, ?_, ?_, ?_⟩
        · simp [Command.run, documentationAnswer, hunit, hj]
        · simp [Run.layout, docsLayout, hunit]
        · simp [Run.layout, docsLayout, hunit]
      | false =>
        have hlines := fill_unitTemplates (tidy_of_unitOf hunit)
        refine ⟨{ console := (documentationOutput u).map .line }, ?_, ?_, ?_⟩
        · simp [Command.run, documentationAnswer, hunit]
        · simp [Run.layout, docsLayout, hunit, ← hlines, Sheet.fill]
        · simp [Run.layout, docsLayout, hunit]
  | languages json =>
    cases json with
    | true => exact ⟨_, rfl, rfl, rfl⟩
    | false =>
      refine ⟨_, rfl, ?_, rfl⟩
      simp [Run.layout, languagesAnswer, Sheet.fill]

end CodeOutline.CommandLine
