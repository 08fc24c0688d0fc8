/-
CodeOutline/Proofs/CommandLine/ForeignText.lean

What foreign text can do to what the commands print.

Escaping never makes a text shorter, so what a run prints is what it would print with everything
escaped exactly if each of the texts it puts in as they are is one that escaping leaves as it is
(`Run.follows_escaped_iff`): a text without tags and without a lone backslash at its end.

The markup around foreign text depends on kinds, levels, line numbers and on how much there is to
tell.  Two runs that have these in common (`Run.SameForm`) have the same templates up to foreign
text (`Run.SameForm.alike`), so what they print differs in nothing but this text behind the guard
of the commands (`markup_of_runs`).
-/
import CodeOutline.Proofs.CommandLine.Template

namespace CodeOutline.CommandLine

open Outcome Text

/-! ### Texts that are put in as they are -/

/-- A stretch that is the same with everything escaped. -/
def Piece.Shown : Piece → Prop
  | .fixed _ => True
  | .foreign o text => o.isBare = true → Markup.ShowsItself text

theorem Piece.length_fill_le (p : Piece) : (p.fill asPut).length ≤ (p.fill escaped).length := by
  cases p with
  | fixed markup => exact Nat.le_refl _
  | foreign o text =>
    show (if o.isBare then text else Markup.escape text).length ≤ (Markup.escape text).length
    split
    · exact Markup.length_le_escape text
    · exact Nat.le_refl _

theorem Piece.fill_eq_iff {p : Piece} : p.fill asPut = p.fill escaped ↔ p.Shown := by
  cases p with
  | fixed markup => exact ⟨fun _ => trivial, fun _ => rfl⟩
  | foreign o text =>
    show (if o.isBare then text else Markup.escape text) = Markup.escape text ↔
      (o.isBare = true → Markup.ShowsItself text)
    rw [← Markup.escape_eq_self_iff]
    split
    · next h => exact ⟨fun e _ => e.symm, fun e => (e h).symm⟩
    · next h => exact ⟨fun _ e => absurd e h, fun _ => rfl⟩

theorem Template.length_fill_le (t : Template) :
    (Template.fill asPut t).length ≤ (Template.fill escaped t).length := by
  induction t with
  | nil => exact Nat.le_refl _
  | cons p t ih =>
    rw [fill_cons, fill_cons, String.length_append, String.length_append]
    exact Nat.add_le_add p.length_fill_le ih

/-- No stretch can make up for what another one has grown by. -/
theorem Template.fill_eq_iff {t : Template} :
    Template.fill asPut t = Template.fill escaped t ↔ ∀ p ∈ t, p.Shown := by
  induction t with
  | nil => simp
  | cons p t ih =>
    rw [List.forall_mem_cons, ← ih, ← Piece.fill_eq_iff, fill_cons, fill_cons]
    constructor
    · intro h
      have hlength := congrArg String.length h
      rw [String.length_append, String.length_append] at hlength
      have hp := p.length_fill_le
      have ht := Template.length_fill_le t
      -- both stretches have the lengths they would have with everything escaped
      have hlists : (p.fill asPut).toList = (p.fill escaped).toList ∧
          (fill asPut t).toList = (fill escaped t).toList := by
        rw [← String.toList_inj, String.toList_append, String.toList_append] at h
        exact List.append_inj h (by rw [String.length_toList, String.length_toList]; omega)
      exact ⟨String.toList_inj.mp hlists.1, String.toList_inj.mp hlists.2⟩
    · rintro ⟨hp, ht⟩
      rw [hp, ht]

theorem map_fill_eq_iff {ts : List Template} :
    ts.map (·.fill asPut) = ts.map (·.fill escaped) ↔ ∀ p ∈ ts.flatten, p.Shown := by
  rw [List.map_inj_left, List.forall_mem_flatten]
  exact forall₂_congr fun t _ => Template.fill_eq_iff

theorem Sheet.fill_eq_iff {s : Sheet} :
    s.fill asPut = s.fill escaped ↔ ∀ p ∈ s.pieces, p.Shown := by
  cases s with
  | line t =>
    rw [fill, fill, Output.line.injEq]
    exact Template.fill_eq_iff
  | table title columns rows =>
    have hrows : (rows.map fun cells => cells.map (·.fill asPut))
        = (rows.map fun cells => cells.map (·.fill escaped)) ↔
          ∀ p ∈ rows.flatten.flatten, p.Shown := by
      simp only [List.map_inj_left, List.forall_mem_flatten, Template.fill_eq_iff]
    rw [fill, fill, Output.table.injEq, Table.mk.injEq, Template.fill_eq_iff, hrows, pieces,
      List.forall_mem_append]
    simp

theorem Layout.fill_eq_iff {l : Layout} :
    l.console.map (·.fill asPut) = l.console.map (·.fill escaped) ∧
      l.errors.map (·.fill asPut) = l.errors.map (·.fill escaped) ↔ ∀ p ∈ l.pieces, p.Shown := by
  rw [pieces, List.forall_mem_append, List.forall_mem_flatMap, map_fill_eq_iff, List.map_inj_left]
  exact and_congr_left' (forall₂_congr fun s _ => Sheet.fill_eq_iff)

theorem Run.follows_escaped_iff (r : Run) : r.Follows escaped ↔ ∀ p ∈ r.layout.pieces, p.Shown := by
  obtain ⟨a, ha, hconsole, herrors⟩ := r.follows_asPut
  rw [← Layout.fill_eq_iff, ← hconsole, ← herrors]
  constructor
  · rintro ⟨b, hb, hconsole, herrors⟩
    obtain rfl : a = b := Except.ok.inj (ha.symm.trans hb)
    exact ⟨hconsole, herrors⟩
  · rintro ⟨hconsole, herrors⟩
    exact ⟨a, ha, hconsole, herrors⟩

/-! ### Runs of one form -/

/-- Two texts that are both empty or both not. -/
def BothSaid (s t : String) : Prop := s = "" ↔ t = ""

/-- Two definitions with the same in a table, up to foreign text. -/
structure RowsAlike (d e : Definition) : Prop where
  kind : d.kind = e.kind
  level : d.scope.level = e.scope.level
  start : d.scope.start.line = e.scope.start.line
  stop : d.scope.stop.line = e.scope.stop.line
  declaringType : BothSaid (factOr d.metadata "declaringType" "")
    (factOr e.metadata "declaringType" "")

/-- Two units with the same table, up to foreign text. -/
structure TablesAlike (u v : CodeUnit) : Prop where
  package : BothSaid (factOr u.metadata "packageName" "") (factOr v.metadata "packageName" "")
  rows : List.Forall₂ RowsAlike u.definitions v.definitions

/-- Two tags with the same line, up to foreign text. -/
structure TagsAlike (t t' : DocumentationTag) : Prop where
  subject : BothSaid (factOr t.attributes "name" "") (factOr t'.attributes "name" "")
  value : BothSaid t.value.shown t'.value.shown

/-- Two pieces of documentation with the same lines, up to foreign text. -/
structure LinesAlike (d d' : Documentation) : Prop where
  description : (splitLines d.description.shown.toList).length
    = (splitLines d'.description.shown.toList).length
  tags : List.Forall₂ TagsAlike d.tags d'.tags

/-- Two units about which the same is told, up to foreign text. -/
structure AccountsAlike (u v : CodeUnit) : Prop where
  unit : Option.Rel LinesAlike u.documentation v.documentation
  definitions : List.Forall₂ (fun c d => c.1.kind = d.1.kind ∧ LinesAlike c.2 d.2)
    u.documented v.documented

/-- Two outcomes that are both failures, or units that are alike. -/
inductive OutcomesAlike (R : CodeUnit → CodeUnit → Prop) : Outcome → Outcome → Prop
  | failed (path path' : Path) (e e' : AnalysisError) :
      OutcomesAlike R (path, .error e) (path', .error e')
  | told (path path' : Path) {u v : CodeUnit} (h : R u v) :
      OutcomesAlike R (path, .ok u) (path', .ok v)

/-- Two runs of a command that come out alike, up to foreign text. -/
inductive Run.SameForm : Run → Run → Prop
  | analyze {w w' : Workspace} {ids ids' : Nat → IdSource} {paths paths' : List Path}
      {root root' : Option Path} (json : Bool)
      (h : List.Forall₂ (OutcomesAlike TablesAlike) (outcomes w ids root 0 paths)
        (outcomes w' ids' root' 0 paths')) :
      SameForm ⟨w, ids, .analyze paths json root⟩ ⟨w', ids', .analyze paths' json root'⟩
  | docs {w w' : Workspace} {ids ids' : Nat → IdSource} {path path' : Path} (json : Bool)
      (h : OutcomesAlike AccountsAlike (path, unitOf w (ids 0) none path)
        (path', unitOf w' (ids' 0) none path')) :
      SameForm ⟨w, ids, .docs path json⟩ ⟨w', ids', .docs path' json⟩
  | languages {w w' : Workspace} {ids ids' : Nat → IdSource} (json : Bool) :
      SameForm ⟨w, ids, .languages json⟩ ⟨w', ids', .languages json⟩

/-! ### Templates that differ in foreign text -/

/-- Two stretches with the same markup, or with foreign text of one kind. -/
inductive Piece.Alike : Piece → Piece → Prop
  | fixed (markup : String) : Alike (.fixed markup) (.fixed markup)
  | foreign (o : Origin) (text text' : String) : Alike (.foreign o text) (.foreign o text')

/-- Two templates that are the same up to foreign text. -/
abbrev Template.Alike (t t' : Template) : Prop := List.Forall₂ Piece.Alike t t'

/-- Two sheets that are the same up to foreign text. -/
inductive Sheet.Alike : Sheet → Sheet → Prop
  | line {t t' : Template} (h : t.Alike t') : Alike (.line t) (.line t')
  | table {title title' : Template} (columns : List String) {rows rows' : List (List Template)}
      (htitle : title.Alike title')
      (hrows : List.Forall₂ (List.Forall₂ Template.Alike) rows rows') :
      Alike (.table title columns rows) (.table title' columns rows')

/-- Two layouts that are the same up to foreign text. -/
structure Layout.Alike (l l' : Layout) : Prop where
  console : List.Forall₂ Sheet.Alike l.console l'.console
  errors : List.Forall₂ Template.Alike l.errors l'.errors

theorem textOr_alike (o : Origin) {s s' : String} (h : BothSaid s s') (default : String) :
    (textOr o s default).Alike (textOr o s' default) := by
  unfold textOr
  by_cases hs : s = ""
  · rw [if_pos hs, if_pos (h.mp hs)]
    exact .cons (.fixed default) .nil
  · rw [if_neg hs, if_neg fun hs' => hs (h.mpr hs')]
    exact .cons (.foreign o s s') .nil

theorem behind_alike (markup : String) (o : Origin) {s s' : String} (h : BothSaid s s') :
    (behind markup o s).Alike (behind markup o s') := by
  unfold behind
  by_cases hs : s = ""
  · rw [if_pos hs, if_pos (h.mp hs)]
    exact .nil
  · rw [if_neg hs, if_neg fun hs' => hs (h.mpr hs')]
    exact .cons (.fixed markup) (.cons (.foreign o s s') .nil)

theorem RowsAlike.templates {d e : Definition} (h : RowsAlike d e) :
    List.Forall₂ Template.Alike (rowTemplates d) (rowTemplates e) := by
  unfold rowTemplates
  rw [h.kind, h.level, h.start, h.stop]
  exact .cons (.cons (.fixed _) .nil) (.cons (.cons (.foreign _ _ _) .nil)
    (.cons (.cons (.fixed _) .nil) (.cons (.cons (.fixed _) .nil)
      (.cons (textOr_alike _ h.declaringType _) .nil))))

theorem TablesAlike.sheet {u v : CodeUnit} (h : TablesAlike u v) :
    (unitSheet u).Alike (unitSheet v) := by
  have htitle : (titleTemplate u).Alike (titleTemplate v) :=
    .cons (.foreign _ _ _) (.cons (.fixed _)
      (List.rel_append (textOr_alike _ h.package _) (.cons (.fixed _) .nil)))
  refine .table _ htitle ?_
  rw [List.forall₂_map_left_iff, List.forall₂_map_right_iff]
  exact h.rows.imp fun _ _ hrow => hrow.templates

theorem TagsAlike.template (indent : String) {t t' : DocumentationTag} (h : TagsAlike t t') :
    (tagTemplate indent t).Alike (tagTemplate indent t') :=
  .cons (.fixed _) (.cons (.fixed _) (.cons (.fixed _) (.cons (.foreign _ _ _)
    (List.rel_append (behind_alike _ _ h.subject)
      (.cons (.fixed _) (behind_alike _ _ h.value))))))

theorem errorTemplate_alike (path path' : Path) (e e' : AnalysisError) :
    (errorTemplate path e).Alike (errorTemplate path' e') :=
  .cons (.fixed _) (.cons (.foreign _ _ _) (.cons (.fixed _) (.cons (.foreign _ _ _) .nil)))

theorem LinesAlike.templates (indent : String) {d d' : Documentation} (h : LinesAlike d d') :
    List.Forall₂ Template.Alike (documentationTemplates indent d)
      (documentationTemplates indent d') := by
  refine List.rel_append ?_ ?_
  · -- lines of the description differ in their text only, so their number decides
    rw [List.forall₂_map_left_iff, List.forall₂_map_right_iff]
    refine List.forall₂_iff_get.mpr ⟨h.description, fun _ _ _ => ?_⟩
    exact .cons (.fixed _) (.cons (.foreign _ _ _) .nil)
  · rw [List.forall₂_map_left_iff, List.forall₂_map_right_iff]
    exact h.tags.imp fun _ _ htag => htag.template indent

theorem AccountsAlike.own {u v : CodeUnit} (h : AccountsAlike u v) :
    List.Forall₂ Template.Alike (ownTemplates u) (ownTemplates v) := by
  have hunit := h.unit
  unfold ownTemplates
  generalize u.documentation = d at hunit ⊢
  generalize v.documentation = d' at hunit ⊢
  cases hunit with
  | none => exact .nil
  | some hdoc =>
    exact .cons (.cons (.fixed _) (.cons (.foreign _ _ _) (.cons (.fixed _) .nil)))
      (hdoc.templates _)

theorem AccountsAlike.documented {u v : CodeUnit} (h : AccountsAlike u v) :
    List.Forall₂ Template.Alike (documentedTemplates u) (documentedTemplates v) := by
  have hdefinitions := h.definitions
  unfold documentedTemplates
  generalize u.documented = ds at hdefinitions ⊢
  generalize v.documented = ds' at hdefinitions ⊢
  cases hdefinitions with
  | nil => exact .cons (.cons (.fixed _) (.cons (.foreign _ _ _) (.cons (.fixed _) .nil))) .nil
  | cons hd hds =>
    have hall : List.Forall₂ (fun c d : Definition × Documentation =>
        c.1.kind = d.1.kind ∧ LinesAlike c.2 d.2) _ _ := .cons hd hds
    refine List.rel_flatMap hall ?_
    rintro ⟨c, doc⟩ ⟨c', doc'⟩ ⟨hkind, hdoc⟩
    refine .cons (.cons (.fixed _) (.cons (.foreign _ _ _) (.cons ?_ .nil))) (hdoc.templates _)
    rw [hkind]
    exact .fixed _

theorem forall₂_outcomeSheet? {os os' : List Outcome}
    (h : List.Forall₂ (OutcomesAlike TablesAlike) os os') :
    List.Forall₂ Sheet.Alike (os.filterMap outcomeSheet?) (os'.filterMap outcomeSheet?) := by
  induction h with
  | nil => exact .nil
  | cons ho _ ih =>
    cases ho with
    | failed => exact ih
    | told _ _ h => exact .cons h.sheet ih

theorem forall₂_outcomeTemplate? {os os' : List Outcome}
    (h : List.Forall₂ (OutcomesAlike TablesAlike) os os') :
    List.Forall₂ Template.Alike (os.filterMap outcomeTemplate?)
      (os'.filterMap outcomeTemplate?) := by
  induction h with
  | nil => exact .nil
  | cons ho _ ih =>
    cases ho with
    | failed path path' e e' => exact .cons (errorTemplate_alike path path' e e') ih
    | told => exact ih

theorem OutcomesAlike.docsLayout {o o' : Outcome} (h : OutcomesAlike AccountsAlike o o')
    (json : Bool) : (docsLayout json o).Alike (docsLayout json o') := by
  cases h with
  | failed path path' e e' => exact ⟨.nil, .cons (errorTemplate_alike path path' e e') .nil⟩
  | told _ _ h =>
    cases json with
    | true => exact ⟨.nil, .nil⟩
    | false =>
      refine ⟨?_, .nil⟩
      show List.Forall₂ Sheet.Alike ((unitTemplates _).map .line) ((unitTemplates _).map .line)
      rw [List.forall₂_map_left_iff, List.forall₂_map_right_iff]
      exact (List.rel_append h.own h.documented).imp fun _ _ ht => .line ht

/-- Runs of one form have layouts that are the same up to foreign text. -/
theorem Run.SameForm.alike {r r' : Run} (h : r.SameForm r') : r.layout.Alike r'.layout := by
  cases h with
  | analyze json h =>
    cases json with
    | true => exact ⟨.nil, .nil⟩
    | false => exact ⟨forall₂_outcomeSheet? h, forall₂_outcomeTemplate? h⟩
  | docs json h => exact h.docsLayout json
  | languages json =>
    cases json with
    | true => exact ⟨.nil, .nil⟩
    | false =>
      refine ⟨?_, .nil⟩
      show List.Forall₂ Sheet.Alike (Registry.bundled.extensions.map _)
        (Registry.bundled.extensions.map _)
      rw [List.forall₂_map_left_iff, List.forall₂_map_right_iff]
      exact List.forall₂_same.mpr fun e _ => .line (.cons (.fixed _) .nil)

/-! ### What foreign text can do -/

/-- A run prints its templates, with foreign text as it is in the names of units and packages, in
the types that declare something and in headings, and escaped everywhere else; it is as if all
foreign text were escaped exactly if the texts that stand as they are show themselves.  Runs of the
same form have the same templates up to foreign text. -/
theorem markup_of_runs (r : Run) :
    r.Follows asPut ∧ (r.Follows escaped ↔ ∀ p ∈ r.layout.pieces, p.Shown) ∧
      ∀ r' : Run, r.SameForm r' → r.layout.Alike r'.layout :=
  ⟨r.follows_asPut, r.follows_escaped_iff, fun _ h => h.alike⟩

/-- All files are there, and all are empty. -/
def emptyFiles : Workspace where
  workingDirectory := ["work"]
  read := fun _ => .ok []
  javaParser := fun _ _ => .plain "program" 0 0 none []
  pythonParser := fun _ _ => .ok ⟨"", "Module", none, [], []⟩

/-- A request for the documentation of an empty file. -/
def docsOf (name : String) : Run := ⟨emptyFiles, fun _ => toString, .docs (.ofString name) false⟩

theorem markup_of_runs_bracketed :
    (docsOf "[b]x.py").SameForm (docsOf "x.py") ∧
      (docsOf "[b]x.py").layout.Alike (docsOf "x.py").layout ∧
      (docsOf "x.py").Follows escaped := by
  obtain ⟨u, hu, hdoc, hdefs⟩ : ∃ u, unitOf emptyFiles toString none (.ofString "[b]x.py") = .ok u ∧
    u.documentation = none ∧ u.documented = [] := ⟨_, rfl, rfl, rfl⟩
  obtain ⟨v, hv, hdoc', hdefs'⟩ : ∃ v, unitOf emptyFiles toString none (.ofString "x.py") = .ok v ∧
    v.documentation = none ∧ v.documented = [] := ⟨_, rfl, rfl, rfl⟩
  have halike : AccountsAlike u v :=
    ⟨by rw [hdoc, hdoc']; exact .none, by rw [hdefs, hdefs']; exact .nil⟩
  have hform : (docsOf "[b]x.py").SameForm (docsOf "x.py") :=
    .docs false (by rw [hu, hv]; exact .told _ _ halike)
  have hpieces : (docsOf "x.py").layout.pieces
      = [.fixed "[dim]No documented definitions in ", .foreign .unit "x.py", .fixed "[/]"] := by
    decide +kernel
  have hshown : ∀ p ∈ (docsOf "x.py").layout.pieces, p.Shown := by
    rw [hpieces]
    have hname : Markup.ShowsItself "x.py" := Markup.escape_eq_self_iff.mp (by decide)
    simp [Piece.Shown, hname]
  exact ⟨hform, (markup_of_runs _).2.2 _ hform, (markup_of_runs _).2.1.mpr hshown⟩

/-- The name of a file that looks like a tag is read as one. -/
theorem not_forall_follows_escaped : ¬ ∀ r : Run, r.Follows escaped := by
  intro h
  have hpiece : Piece.foreign .unit "[b]x.py" ∈ (docsOf "[b]x.py").layout.pieces := by
    decide +kernel
  have hshown := (Run.follows_escaped_iff _).mp (h (docsOf "[b]x.py")) _ hpiece rfl
  have htag := hshown.1 _ (List.suffix_refl _)
  exact absurd htag (by decide)

end CodeOutline.CommandLine
