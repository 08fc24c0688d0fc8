/-
CodeOutline/Proofs/Python/WellPlaced.lean

Modules whose statements stand where they should.

In a well placed tree every statement takes up a stretch of the source between two boundaries of
characters, which holds those of the statements in it (`WellPlaced`).  The stretch is given by lines
and columns of octets; the offsets that these stand for are what is compared.

A stretch has a first and a last position, and a stretch inside another has them inside those of
the other, in lines and columns as well as in characters (`TakesUp.encloses`).  So every place that
is asked for is found, every scope holds what it has to hold (`WellPlaced.exists_make`), and no
cause is left that could stop the conversion for a place (`WellPlaced.not_isOfPlace`).  The main
statement adds what this means for the definitions of the module (`places_of_wellPlaced`).
-/
import CodeOutline.Proofs.Entity.Nesting
import CodeOutline.Proofs.Python.Arrangement
import CodeOutline.Proofs.Python.Failures
import CodeOutline.Proofs.Source.Place

namespace CodeOutline

open Outcome
open Text.Utf8 (Octets IsBoundary IsCut)

/-! ### Scopes in scopes -/

namespace Scope

/-- A scope spans another one, by lines and columns and by offsets. -/
structure Encloses (s t : Scope) : Prop where
  contains : s.contains t = true
  start : s.start.offset ≤ t.start.offset
  stop : t.stop.offset ≤ s.stop.offset

theorem Encloses.refl (s : Scope) : s.Encloses s := ⟨contains_refl s, le_refl _, le_refl _⟩

/-- No scope in a scope, at any depth, ends before it begins, and each spans those in it. -/
structure Nests (s : Scope) : Prop where
  ends : ∀ t, Within s t → t.stop.isBefore t.start = false ∧ t.start.offset ≤ t.stop.offset
  encloses : ∀ t, Within s t → ∀ u, Within t u → t.Encloses u

theorem eq_of_within {s t : Scope} (h : Within s t) (hs : s.children = []) : t = s := by
  cases h with
  | self => rfl
  | child hc =>
    rw [hs] at hc
    cases hc

end Scope

/-! ### Offsets of nodes -/

/-- The offset at a column of a line; none where there is no such line, or where the column lies
before the beginning of the text. -/
def LineIndex.offset? (t : LineIndex) (line column : Int) : Option Nat :=
  if 1 ≤ line ∧ line ≤ t.lineCount then
    (t.lineStart? line).bind (fun start =>
      if 0 ≤ start + column then some (start + column).toNat else none)
  else none

namespace Python

/-- The kinds of statements. -/
def statementKinds : List String :=
  ["FunctionDef", "AsyncFunctionDef", "ClassDef", "Return", "Delete", "Assign", "TypeAlias",
    "AugAssign", "AnnAssign", "For", "AsyncFor", "While", "If", "With", "AsyncWith", "Match",
    "Raise", "Try", "TryStar", "Assert", "Import", "ImportFrom", "Global", "Nonlocal", "Expr",
    "Pass", "Break", "Continue"]

namespace Node

/-- Whether a node is a statement. -/
def isStatement (n : Node) : Bool := statementKinds.contains n.kind

/-- The offset at which a node begins. -/
def start? (t : LineIndex) (n : Node) : Option Nat :=
  n.range.bind (fun r => t.offset? r.line r.column)

/-- The offset at which a node ends. -/
def stop? (t : LineIndex) (n : Node) : Option Nat :=
  n.range.bind fun r => r.endLine.bind fun line => r.endColumn.bind fun column =>
    t.offset? line column

theorem isStatement_of_isDefining {n : Node} (h : n.isDefining = true) :
    n.isStatement = true := by
  simp only [isDefining, isClass, isFunction, isAssignment, Bool.or_eq_true, beq_iff_eq] at h
  rcases h with (h | h | h) | h | h
  all_goals simp [isStatement, statementKinds, h]

end Node

theorem isStatement_of_statementText? {n : Node} (h : (statementText? n).isSome = true) :
    n.isStatement = true := by
  unfold statementText? at h
  split at h
  · next hkind => simp [Node.isStatement, statementKinds, hkind]
  · cases h

/-- Every statement of a tree takes up a stretch between two boundaries of characters of a source,
which is not empty and lies in those of the statements around it.  Decorators and bases begin
inside the source. -/
structure WellPlaced (bs : Octets) (root : Node) : Prop where
  bounds : ∀ n ∈ root.preorder, n.isStatement = true →
    ∃ k ∈ n.start? (.ofSource bs), ∃ l ∈ n.stop? (.ofSource bs),
      IsBoundary bs k ∧ IsBoundary bs l ∧ k < l
  nested : ∀ n ∈ root.preorder, n.isStatement = true → ∀ m ∈ n.preorder, m.isStatement = true →
    (∀ k ∈ n.start? (.ofSource bs), ∀ k' ∈ m.start? (.ofSource bs), k ≤ k') ∧
    ∀ l ∈ n.stop? (.ofSource bs), ∀ l' ∈ m.stop? (.ofSource bs), l' ≤ l
  references : ∀ n ∈ root.preorder, n.isStatement = true →
    ∀ d ∈ n.inRole "decorator_list" ++ n.inRole "bases",
      ∃ k ∈ d.start? (.ofSource bs), k ≤ bs.length

instance (bs : Octets) (root : Node) : Decidable (WellPlaced bs root) :=
  decidable_of_iff
    ((∀ n ∈ root.preorder, n.isStatement = true →
      ∃ k ∈ n.start? (.ofSource bs), ∃ l ∈ n.stop? (.ofSource bs),
        IsBoundary bs k ∧ IsBoundary bs l ∧ k < l) ∧
    (∀ n ∈ root.preorder, n.isStatement = true → ∀ m ∈ n.preorder, m.isStatement = true →
      (∀ k ∈ n.start? (.ofSource bs), ∀ k' ∈ m.start? (.ofSource bs), k ≤ k') ∧
      ∀ l ∈ n.stop? (.ofSource bs), ∀ l' ∈ m.stop? (.ofSource bs), l' ≤ l) ∧
    ∀ n ∈ root.preorder, n.isStatement = true →
      ∀ d ∈ n.inRole "decorator_list" ++ n.inRole "bases",
        ∃ k ∈ d.start? (.ofSource bs), k ≤ bs.length)
    ⟨fun ⟨h₁, h₂, h₃⟩ => ⟨h₁, h₂, h₃⟩, fun ⟨h₁, h₂, h₃⟩ => ⟨h₁, h₂, h₃⟩⟩

/-! ### Places of stretches -/

variable {t : LineIndex} {bs : Octets} {root n : Node} {k l : Nat}

theorem offsetOf_of_offset? {line column : Int} (h : t.offset? line column = some k) :
    offsetOf t line column = .ok (k : Int) := by
  unfold LineIndex.offset? at h
  split at h
  · obtain ⟨start, hstart, h⟩ := Option.bind_eq_some_iff.mp h
    split at h
    · next hpos =>
      rw [Option.some.injEq] at h
      rw [offsetOf, hstart, Except.ok.injEq]
      omega
    · cases h
  · cases h

/-- Where a node begins is the position at its offset. -/
theorem startOf_of_start? (h : n.start? t = some k) : startOf t n = .ok (t.position k) := by
  obtain ⟨r, hr, hk⟩ := Option.bind_eq_some_iff.mp h
  rw [startOf, hr]
  dsimp only
  rw [positionOf, offsetOf_of_offset? hk]
  rfl

/-- The span of a node is that of the stretch it takes up. -/
theorem spanOf_of_stretch (hk : n.start? t = some k) (hl : n.stop? t = some l) (h : k < l) :
    spanOf t n = .ok (t.position k, t.lastPosition l) := by
  obtain ⟨r, hr, hk⟩ := Option.bind_eq_some_iff.mp hk
  obtain ⟨r', hr', hl⟩ := Option.bind_eq_some_iff.mp hl
  obtain rfl : r = r' := Option.some.inj (hr.symm.trans hr')
  obtain ⟨line, hline, hl⟩ := Option.bind_eq_some_iff.mp hl
  obtain ⟨column, hcolumn, hl⟩ := Option.bind_eq_some_iff.mp hl
  have hspan : t.spanAt k l = .ok (some (t.position k, t.lastPosition l)) := by
    rw [LineIndex.spanAt, if_neg (by omega)]
    rfl
  have hin : spanIn t r = .ok (some (t.position k, t.lastPosition l)) := by
    rw [spanIn, hline, hcolumn]
    dsimp only
    rw [offsetOf_of_offset? hk, ok_bind, offsetOf_of_offset? hl, ok_bind, hspan]
    rfl
  rw [spanOf, hr]
  dsimp only
  rw [hin]
  rfl

/-- The number of characters before a cut is the offset of its position. -/
theorem offset_position (h : IsCut bs k) :
    ((LineIndex.ofSource bs).position k).offset = LineIndex.charsBefore bs k := by
  rw [LineIndex.position_of_isCut h]
  rfl

theorem offset_lastPosition (h : IsCut bs l) :
    ((LineIndex.ofSource bs).lastPosition l).offset = LineIndex.charsBefore bs l - 1 := by
  rw [LineIndex.lastPosition_of_isCut h]
  rfl

/-- A scope is that of a stretch between two cuts. -/
structure TakesUp (bs : Octets) (s : Scope) (k l : Nat) : Prop where
  start : s.start = (LineIndex.ofSource bs).position k
  stop : s.stop = (LineIndex.ofSource bs).lastPosition l
  isCut_start : IsCut bs k
  isCut_stop : IsCut bs l
  lt : k < l

namespace TakesUp

variable {s s' : Scope} {k' l' : Nat}

/-- The scope of a stretch does not end before it begins. -/
theorem ends (h : TakesUp bs s k l) :
    s.stop.isBefore s.start = false ∧ s.start.offset ≤ s.stop.offset := by
  have hlt := LineIndex.charsBefore_lt h.isCut_start h.lt h.isCut_stop.1
  rw [h.start, h.stop, offset_position h.isCut_start, offset_lastPosition h.isCut_stop]
  exact ⟨LineIndex.not_lastPosition_isBefore_position h.isCut_start h.isCut_stop h.lt, by omega⟩

/-- The scope of a stretch spans that of a stretch inside it. -/
theorem encloses (h : TakesUp bs s k l) (h' : TakesUp bs s' k' l') (hk : k ≤ k') (hl : l' ≤ l) :
    s.Encloses s' where
  contains := by
    rw [Scope.contains_iff, h.start, h'.start, h.stop, h'.stop]
    exact ⟨LineIndex.not_position_isBefore h.isCut_start h'.isCut_start hk,
      LineIndex.not_lastPosition_isBefore h'.isCut_stop h.isCut_stop hl⟩
  start := by
    rw [h.start, h'.start, offset_position h.isCut_start, offset_position h'.isCut_start]
    exact LineIndex.charsBefore_mono h.isCut_start hk
  stop := by
    have hmono := LineIndex.charsBefore_mono h'.isCut_stop hl
    rw [h.stop, h'.stop, offset_lastPosition h.isCut_stop, offset_lastPosition h'.isCut_stop]
    omega

end TakesUp

/-! ### Scopes that are held -/

/-- What a class has as members is bound by statements of its body. -/
theorem mem_body_of_mem_memberNodes {b : Node × Node} (h : b ∈ memberNodes n) :
    b.1 ∈ n.body ∧ b.1.isDefining = true := by
  unfold memberNodes at h
  split at h
  · obtain ⟨m, hm, hb⟩ := List.mem_flatMap.mp h
    split at hb
    · cases hb
    · unfold bindings at hb
      split at hb
      · next hfunction =>
        obtain rfl := List.mem_singleton.mp hb
        exact ⟨hm, Node.isDefining_of_isFunction hfunction⟩
      · split at hb
        · next hassignment =>
          obtain ⟨target, -, rfl⟩ := List.mem_map.mp hb
          exact ⟨hm, Node.isDefining_of_isAssignment hassignment⟩
        · cases hb
  · cases h

/-- A scope that is held is that of a statement of the body and holds no others. -/
theorem span_of_areHeld {children : List Scope} (h : AreHeld t n children) {c : Scope}
    (hc : c ∈ children) :
    c.children = [] ∧ ∃ m ∈ n.body, m.isDefining = true ∧ spanOf t m = .ok (c.start, c.stop) := by
  obtain rfl | ⟨name, ms, hname, hms, rfl⟩ := h
  · cases hc
  · obtain ⟨d, hd, rfl⟩ := List.mem_map.mp hc
    obtain ⟨b, hb, hbinding⟩ := exists_of_forall₂_of_mem (forall₂_isBinding_of_members hname hms) hd
    obtain ⟨hbody, hdefining⟩ := mem_body_of_mem_memberNodes hb
    exact ⟨hbinding.children, b.1, hbody, hdefining, hbinding.span⟩

/-- In the scope of a statement there are only itself and the scopes that are held. -/
theorem eq_or_mem_of_within {s u : Scope} (h : AreHeld t n s.children) (hu : s.Within u) :
    u = s ∨ u ∈ s.children := by
  cases hu with
  | self => exact .inl rfl
  | child hc hu =>
    rw [Scope.eq_of_within hu (span_of_areHeld h hc).1]
    exact .inr hc

namespace WellPlaced

variable (h : WellPlaced bs root)
include h

/-- Every statement has a span. -/
theorem exists_spanOf (hn : n ∈ root.preorder) (hs : n.isStatement = true) :
    ∃ r, spanOf (.ofSource bs) n = .ok r := by
  obtain ⟨k, hk, l, hl, -, -, hlt⟩ := h.bounds n hn hs
  exact ⟨_, spanOf_of_stretch hk hl hlt⟩

/-- A scope with the span of a statement is that of the stretch which the statement takes up. -/
theorem exists_takesUp (hn : n ∈ root.preorder) (hs : n.isStatement = true) {s : Scope}
    (hspan : spanOf (.ofSource bs) n = .ok (s.start, s.stop)) :
    ∃ k l, n.start? (.ofSource bs) = some k ∧ n.stop? (.ofSource bs) = some l ∧
      TakesUp bs s k l := by
  obtain ⟨k, hk, l, hl, hbk, hbl, hlt⟩ := h.bounds n hn hs
  obtain ⟨hstart, hstop⟩ := Prod.mk.inj
    (Except.ok.inj (hspan.symm.trans (spanOf_of_stretch hk hl hlt)))
  exact ⟨k, l, hk, hl, hstart, hstop, hbk.isCut, hbl.isCut, hlt⟩

/-- The scope of a statement does not end before it begins. -/
theorem ends (hn : n ∈ root.preorder) (hs : n.isStatement = true) {s : Scope}
    (hspan : spanOf (.ofSource bs) n = .ok (s.start, s.stop)) :
    s.stop.isBefore s.start = false ∧ s.start.offset ≤ s.stop.offset := by
  obtain ⟨k, l, -, -, htakes⟩ := h.exists_takesUp hn hs hspan
  exact htakes.ends

/-- The scope of a statement spans those of the statements in it. -/
theorem encloses {m : Node} (hn : n ∈ root.preorder) (hs : n.isStatement = true)
    (hm : m ∈ n.preorder) (hms : m.isStatement = true) {s s' : Scope}
    (hspan : spanOf (.ofSource bs) n = .ok (s.start, s.stop))
    (hspan' : spanOf (.ofSource bs) m = .ok (s'.start, s'.stop)) : s.Encloses s' := by
  obtain ⟨k, l, hk, hl, htakes⟩ := h.exists_takesUp hn hs hspan
  obtain ⟨k', l', hk', hl', htakes'⟩ :=
    h.exists_takesUp (Node.preorder_subset_preorder hn m hm) hms hspan'
  obtain ⟨hstart, hstop⟩ := h.nested n hn hs m hm hms
  exact htakes.encloses htakes' (hstart k hk k' hk') (hstop l hl l' hl')

/-- A scope with the span of a statement spans those that it has to hold. -/
theorem encloses_of_areHeld (hn : n ∈ root.preorder) (hs : n.isStatement = true) {s : Scope}
    (hspan : spanOf (.ofSource bs) n = .ok (s.start, s.stop)) {children : List Scope}
    (hheld : AreHeld (.ofSource bs) n children) : ∀ c ∈ children, s.Encloses c := by
  intro c hc
  obtain ⟨-, m, hm, hdefining, hspan'⟩ := span_of_areHeld hheld hc
  have hchild : m ∈ n.children := Node.mem_children_of_mem_inRole hm
  exact h.encloses hn hs (Node.mem_preorder_of_mem_children hchild (Node.mem_preorder_self m))
    (Node.isStatement_of_isDefining hdefining) hspan hspan'

/-- The span of a statement makes a scope with those that it has to hold. -/
theorem exists_make (hn : n ∈ root.preorder) (hs : n.isStatement = true)
    {r : Position × Position} (hspan : spanOf (.ofSource bs) n = .ok r) (level : ScopeLevel)
    {children : List Scope} (hheld : AreHeld (.ofSource bs) n children) :
    ∃ s, Scope.make level r.1 r.2 children = .ok s := by
  let s : Scope := ⟨level, r.1, r.2, children, []⟩
  have hends := h.ends (s := s) hn hs hspan
  have hencloses := h.encloses_of_areHeld (s := s) hn hs hspan hheld
  exact ⟨s, Scope.make_eq_ok_iff.mpr
    ⟨hends.1, fun c hc => Scope.contains_iff.mp (hencloses c hc).contains, rfl⟩⟩

/-- The scope of a statement nests. -/
theorem nests (hn : n ∈ root.preorder) (hs : n.isStatement = true) {s : Scope}
    (hspan : spanOf (.ofSource bs) n = .ok (s.start, s.stop))
    (hheld : AreHeld (.ofSource bs) n s.children) : s.Nests := by
  constructor
  · intro u hu
    rcases eq_or_mem_of_within hheld hu with rfl | hc
    · exact h.ends hn hs hspan
    · obtain ⟨-, m, hm, hdefining, hspan'⟩ := span_of_areHeld hheld hc
      exact h.ends (Node.mem_preorder_child hn (Node.mem_children_of_mem_inRole hm))
        (Node.isStatement_of_isDefining hdefining) hspan'
  · intro u hu v hv
    rcases eq_or_mem_of_within hheld hu with rfl | hc
    · rcases eq_or_mem_of_within hheld hv with rfl | hc
      · exact .refl v
      · exact h.encloses_of_areHeld hn hs hspan hheld v hc
    · rw [Scope.eq_of_within hv (span_of_areHeld hheld hc).1]
      exact .refl u

/-- Where a statement, a decorator or a base begins is known. -/
theorem exists_startOf (hn : IsReferred root n) : ∃ p, startOf (.ofSource bs) n = .ok p := by
  cases hn with
  | text hn htext =>
    obtain ⟨k, hk, -⟩ := h.bounds _ hn (isStatement_of_statementText? htext)
    exact ⟨_, startOf_of_start? hk⟩
  | reference hn hdefining hd =>
    obtain ⟨k, hk, -⟩ := h.references _ hn (Node.isStatement_of_isDefining hdefining) n
      (List.mem_append.mpr hd)
    exact ⟨_, startOf_of_start? hk⟩

/-- What stops the conversion of a well placed tree has nothing to do with places. -/
theorem not_isOfPlace {e : Failure} (he : Arises (.ofSource bs) root e) : isOfPlace e = false := by
  cases he with
  | blank field => rfl
  | defect h => exact h
  | docstring => rfl
  | span hn hdefining hspan =>
    obtain ⟨r, hok⟩ := h.exists_spanOf hn (Node.isStatement_of_isDefining hdefining)
    rw [hok] at hspan
    cases hspan
  | start hn hstart =>
    obtain ⟨p, hok⟩ := h.exists_startOf hn
    rw [hok] at hstart
    cases hstart
  | @scope n r level children e hn hdefining hspan hheld hmake =>
    obtain ⟨s, hok⟩ := h.exists_make hn (Node.isStatement_of_isDefining hdefining) hspan level hheld
    rw [hok] at hmake
    cases hmake

/-- A definition begins with its scope, and its scope nests. -/
theorem nests_of_made {d : Definition.Content} (hd : Made (.ofSource bs) root d) :
    d.position = d.scope.start ∧ d.scope.Nests := by
  cases hd with
  | define hn hdefining hheld _ hframe _ _ hdefine =>
    obtain ⟨hspan, hchildren⟩ := scope_of_frame hframe
    obtain ⟨-, rfl⟩ := define_eq_ok_iff.mp hdefine
    rw [← hchildren] at hheld
    exact ⟨rfl, h.nests hn (Node.isStatement_of_isDefining hdefining) hspan hheld⟩

end WellPlaced

/-! ### Modules -/

/-- In a well placed tree every statement has a span and a beginning, and its span makes a scope
with whatever it has to hold; decorators and bases have a beginning.  So the conversion of the
module is not stopped for a place, and if it has a result, every definition begins with its scope,
and the scopes nest. -/
theorem places_of_wellPlaced {p : Parsed Node} {root : Node} (hroot : p.tree? = some root)
    (h : WellPlaced p.source root) :
    (∀ n ∈ root.preorder, n.isStatement = true →
      (∃ start, startOf (.ofSource p.source) n = .ok start) ∧
      (∃ r, spanOf (.ofSource p.source) n = .ok r ∧
        ∀ level children, AreHeld (.ofSource p.source) n children →
          ∃ s, Scope.make level r.1 r.2 children = .ok s) ∧
      ∀ d ∈ n.inRole "decorator_list" ++ n.inRole "bases",
        ∃ start, startOf (.ofSource p.source) d = .ok start) ∧
    ∀ (ids : IdSource) (workingDirectory : List String) (sourceRoot : Option Path),
      (∀ e, convert ids workingDirectory sourceRoot (some p) = .error e →
        ∃ cause, e = .unconverted p.unitName cause ∧ isOfPlace cause = false) ∧
      ∀ u, convert ids workingDirectory sourceRoot (some p) = .ok u →
        ∀ d ∈ u.definitions, d.position = d.scope.start ∧ d.scope.Nests := by
  refine ⟨fun n hn hs => ⟨?_, ?_, fun d hd => ?_⟩,
    fun ids workingDirectory sourceRoot => ⟨fun e he => ?_, fun u hu d hd => ?_⟩⟩
  · obtain ⟨k, hk, -⟩ := h.bounds n hn hs
    exact ⟨_, startOf_of_start? hk⟩
  · obtain ⟨r, hspan⟩ := h.exists_spanOf hn hs
    exact ⟨r, hspan, fun level children hheld => h.exists_make hn hs hspan level hheld⟩
  · obtain ⟨k, hk, -⟩ := h.references n hn hs d hd
    exact ⟨_, startOf_of_start? hk⟩
  · obtain ⟨cause, rfl, hparts | hcause⟩ := arises_of_convert hroot he
    · obtain ⟨path, rfl⟩ := exists_of_moduleParts_eq_error hparts
      exact ⟨_, rfl, rfl⟩
    · exact ⟨cause, rfl, h.not_isOfPlace hcause⟩
  · exact h.nests_of_made (forall_made_of_convert hroot hu d hd)

/-! ### Statements that share a line -/

/-- The tree of a class with two statements in one line and a class in its body. -/
def sharedLineTree : Node :=
  ⟨"", "Module", none, [], [
    ⟨"body", "ClassDef", some ⟨1, 0, some 4, some 21⟩, [("name", .text "C")], [
      ⟨"bases", "Name", some ⟨1, 8, some 1, some 9⟩, [("id", .text "B")], []⟩,
      ⟨"body", "Expr", some ⟨2, 2, some 2, some 6⟩, [], [
        ⟨"value", "Constant", some ⟨2, 2, some 2, some 6⟩, [("value", .literal (.text "é"))], []⟩]⟩,
      ⟨"body", "Assign", some ⟨2, 8, some 2, some 17⟩, [], [
        ⟨"targets", "Name", some ⟨2, 8, some 2, some 9⟩, [("id", .text "x")], []⟩,
        ⟨"targets", "Name", some ⟨2, 12, some 2, some 13⟩, [("id", .text "y")], []⟩,
        ⟨"value", "Constant", some ⟨2, 16, some 2, some 17⟩, [("value", .literal (.int "1"))],
          []⟩]⟩,
      ⟨"body", "ClassDef", some ⟨3, 2, some 4, some 21⟩, [("name", .text "D")], [
        ⟨"body", "FunctionDef", some ⟨4, 4, some 4, some 21⟩, [("name", .text "f")], [
          ⟨"args", "arguments", none, [], [
            ⟨"args", "arg", some ⟨4, 10, some 4, some 14⟩, [("arg", .text "self")], []⟩]⟩,
          ⟨"body", "Pass", some ⟨4, 17, some 4, some 21⟩, [], []⟩]⟩]⟩]⟩]⟩

/-- What a parser makes of the text of `sharedLineTree`. -/
def sharedLine : Parsed Node where
  path := some (.ofString "m.py")
  source := "class C(B):\n  'é'; x = y = 1\n  class D:\n    def f(self): pass\n".toUTF8.toList
  tree := some sharedLineTree
  problems := []

theorem places_of_wellPlaced_sharedLine :
    WellPlaced sharedLine.source sharedLineTree ∧
      ∃ u, convert toString [] none (some sharedLine) = .ok u ∧
        ∀ d ∈ u.definitions, d.position = d.scope.start ∧ d.scope.Nests := by
  have hplaced : WellPlaced sharedLine.source sharedLineTree := by decide +kernel
  have hok : (convert toString [] none (some sharedLine)).isOk = true := by decide +kernel
  obtain ⟨u, hu⟩ := exists_eq_ok_of_isOk hok
  exact ⟨hplaced, u, hu, ((places_of_wellPlaced rfl hplaced).2 toString [] none).2 u hu⟩

end Python

end CodeOutline
