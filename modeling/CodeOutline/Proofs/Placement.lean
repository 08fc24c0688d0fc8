/-
CodeOutline/Proofs/Placement.lean

The positions of units are places in the text that was read.

`PlacedIn` says that every position in a unit is that of a character of a text, with line, column
and offset read off the text as a whole, and that lines and columns order the positions as offsets
do.  The units of both languages are placed in the text of their source, if the nodes of the tree
begin and end on boundaries of characters (`placedIn_of_convert`): for one language these are given
by offsets, for the other by lines and columns of octets.
-/
import CodeOutline.Proofs.Java.Places
import CodeOutline.Proofs.Python.Places
import CodeOutline.Proofs.Source.Column

namespace CodeOutline

open Outcome
open Text.Utf8 (Octets IsBoundary decode)

/-- All positions in a unit are places in a text, in the order of their offsets. -/
structure CodeUnit.PlacedIn (text : List Char) (u : CodeUnit) : Prop where
  isPlace : ∀ p ∈ u.positions, p.IsPlace text
  isBefore_iff : ∀ p ∈ u.positions, ∀ q ∈ u.positions, p.isBefore q = true ↔ p.offset < q.offset

theorem CodeUnit.placedIn_of_forall {text : List Char} {u : CodeUnit}
    (h : ∀ p ∈ u.positions, p.IsPlace text) : u.PlacedIn text :=
  ⟨h, fun p hp q hq => (h p hp).isBefore_iff (h q hq)⟩

/-! ### Nodes given by offsets -/

theorem Java.endsSatisfy_isPlace {bs : Octets} {root : Java.Node}
    (h : ∀ n, Java.Below root n → IsBoundary bs n.start ∧ IsBoundary bs n.stop) :
    Java.EndsSatisfy (Position.IsPlace (decode bs)) (.ofSource bs) root := fun n hn =>
  ⟨LineIndex.isPlace_position (h n hn).1.isCut, LineIndex.isPlace_lastPosition (h n hn).2.isCut⟩

/-! ### Nodes given by lines and columns -/

namespace Python

/-- The beginning of a range and its end, if it is known, are columns of lines of a source. -/
structure Range.IsIn (bs : Octets) (r : Range) : Prop where
  start : LineIndex.IsColumn bs r.line r.column
  stop : ∀ line ∈ r.endLine, ∀ column ∈ r.endColumn, LineIndex.IsColumn bs line column

instance (bs : Octets) (r : Range) : Decidable (r.IsIn bs) :=
  decidable_of_iff
    (LineIndex.IsColumn bs r.line r.column ∧
      ∀ line ∈ r.endLine, ∀ column ∈ r.endColumn, LineIndex.IsColumn bs line column)
    ⟨fun ⟨h₁, h₂⟩ => ⟨h₁, h₂⟩, fun ⟨h₁, h₂⟩ => ⟨h₁, h₂⟩⟩

variable {bs : Octets}

theorem exists_isCut_of_offsetOf {line column offset : Int}
    (h : LineIndex.IsColumn bs line column)
    (ho : offsetOf (.ofSource bs) line column = .ok offset) :
    ∃ k : Nat, offset = k ∧ Text.Utf8.IsCut bs k := by
  obtain ⟨start, k, hstart, hk, hcut⟩ := LineIndex.exists_isCut_of_isColumn h
  simp only [offsetOf, hstart, Except.ok.injEq] at ho
  exact ⟨k, ho.symm.trans hk, hcut⟩

theorem isPlace_of_startOf {n : Node} {p : Position} (h : ∀ r ∈ n.range, r.IsIn bs)
    (hp : startOf (.ofSource bs) n = .ok p) : p.IsPlace (decode bs) := by
  unfold startOf at hp
  split at hp
  · cases hp
  · next r e =>
    obtain ⟨offset, ho, hp⟩ := bind_eq_ok_iff.mp hp
    obtain ⟨k, rfl, hcut⟩ := exists_isCut_of_offsetOf (h r e).start ho
    cases hp
    exact LineIndex.isPlace_position hcut

theorem isPlace_of_spanOf {n : Node} {ends : Position × Position} (h : ∀ r ∈ n.range, r.IsIn bs)
    (hends : spanOf (.ofSource bs) n = .ok ends) :
    ends.1.IsPlace (decode bs) ∧ ends.2.IsPlace (decode bs) := by
  unfold spanOf at hends
  split at hends
  · cases hends
  · next r e =>
    simp only [mapError_eq_ok_iff, needed_eq_ok_iff] at hends
    unfold spanIn at hends
    split at hends
    · -- a range with a known end
      next endLine endColumn hline hcolumn =>
      simp only [bind_eq_ok_iff, built_eq_ok_iff] at hends
      obtain ⟨_, hstart, _, hstop, hspan⟩ := hends
      obtain ⟨k, rfl, hk⟩ := exists_isCut_of_offsetOf (h r e).start hstart
      obtain ⟨l, rfl, hl⟩ :=
        exists_isCut_of_offsetOf ((h r e).stop endLine hline endColumn hcolumn) hstop
      unfold LineIndex.spanAt at hspan
      split at hspan
      · cases hspan
      · cases hspan
        exact ⟨LineIndex.isPlace_position hk, LineIndex.isPlace_lastPosition hl⟩
    · cases hends

theorem endsSatisfy_isPlace {root : Node}
    (h : ∀ n ∈ root.preorder, ∀ r ∈ n.range, r.IsIn bs) :
    EndsSatisfy (Position.IsPlace (decode bs)) (.ofSource bs) root := fun n hn =>
  ⟨fun _ hp => isPlace_of_startOf (h n hn) hp, fun _ hr => isPlace_of_spanOf (h n hn) hr⟩

end Python

/-! ### Units -/

/-- The unit of a tree whose nodes begin and end on boundaries of characters is placed in the text
of its source. -/
theorem placedIn_of_convert (ids : IdSource) (u : CodeUnit) :
    (∀ (p : Parsed Java.Node) (root : Java.Node), p.tree? = some root →
      (∀ n, Java.Below root n → IsBoundary p.source n.start ∧ IsBoundary p.source n.stop) →
      Java.convert ids (some p) = .ok u → u.PlacedIn (decode p.source)) ∧
    ∀ (workingDirectory : List String) (sourceRoot : Option Path) (p : Parsed Python.Node)
      (root : Python.Node), p.tree? = some root →
      (∀ n ∈ root.preorder, ∀ r ∈ n.range, r.IsIn p.source) →
      Python.convert ids workingDirectory sourceRoot (some p) = .ok u →
      u.PlacedIn (decode p.source) := by
  constructor
  · intro p root hroot h hu
    exact CodeUnit.placedIn_of_forall
      (Java.forall_positions_of_convert hroot (Java.endsSatisfy_isPlace h) hu)
  · intro workingDirectory sourceRoot p root hroot h hu
    exact CodeUnit.placedIn_of_forall
      (Python.forall_positions_of_convert hroot (Python.endsSatisfy_isPlace h) hu)

/-! ### Sources with characters of several octets -/

/-- The tree of a class with a field, after a comment. -/
def commentedTree : Java.Node :=
  .plain "program" 0 25 none [
    .plain "block_comment" 0 10 none [],
    .plain "class_declaration" 10 25 none [
      .plain "identifier" 16 17 (some "name") [],
      .plain "class_body" 17 25 (some "body") [
        .plain "field_declaration" 18 24 none [
          .plain "integral_type" 18 21 (some "type") [],
          .plain "variable_declarator" 22 23 (some "declarator") [
            .plain "identifier" 22 23 (some "name") []]]]]]

/-- What a parser makes of the text of `commentedTree`; the comment has a character of two octets
and an octet that is no character. -/
def commented : Parsed Java.Node where
  path := none
  source := "/** é".toUTF8.toList ++ 0xFF :: " */class A{int b;}".toUTF8.toList
  tree := some commentedTree
  problems := []

/-- The tree of a decorated class with a docstring and a variable. -/
def decoratedTree : Python.Node :=
  ⟨"", "Module", none, [], [
    ⟨"body", "ClassDef", some ⟨2, 0, some 4, some 7⟩, [("name", .text "C")], [
      ⟨"bases", "Name", some ⟨2, 8, some 2, some 9⟩, [("id", .text "B")], []⟩,
      ⟨"body", "Expr", some ⟨3, 2, some 3, some 6⟩, [], [
        ⟨"value", "Constant", some ⟨3, 2, some 3, some 6⟩, [("value", .literal (.text "é"))], []⟩]⟩,
      ⟨"body", "Assign", some ⟨4, 2, some 4, some 7⟩, [], [
        ⟨"targets", "Name", some ⟨4, 2, some 4, some 3⟩, [("id", .text "x")], []⟩,
        ⟨"value", "Constant", some ⟨4, 6, some 4, some 7⟩, [("value", .literal (.int "1"))], []⟩]⟩,
      ⟨"decorator_list", "Name", some ⟨1, 1, some 1, some 2⟩, [("id", .text "d")], []⟩]⟩]⟩

/-- What a parser makes of the text of `decoratedTree`. -/
def decorated : Parsed Python.Node where
  path := some (.ofString "m.py")
  source := "@d\nclass C(B):\n  \"é\"\n  x = 1\n".toUTF8.toList
  tree := some decoratedTree
  problems := []

theorem placedIn_of_convert_samples :
    (∃ u, Java.convert toString (some commented) = .ok u ∧
      u.PlacedIn (decode commented.source)) ∧
    ∃ u, Python.convert toString [] none (some decorated) = .ok u ∧
      u.PlacedIn (decode decorated.source) := by
  constructor
  · have hok : (Java.convert toString (some commented)).isOk = true := by decide +kernel
    obtain ⟨u, hu⟩ := exists_eq_ok_of_isOk hok
    exact ⟨u, hu, (placedIn_of_convert toString u).1 commented commentedTree rfl
      (by decide +kernel) hu⟩
  · have hok : (Python.convert toString [] none (some decorated)).isOk = true := by decide +kernel
    obtain ⟨u, hu⟩ := exists_eq_ok_of_isOk hok
    exact ⟨u, hu, (placedIn_of_convert toString u).2 [] none decorated decoratedTree rfl
      (by decide +kernel) hu⟩

end CodeOutline
