/-
CodeOutline/Proofs/Python/BoundNames.lean

Which of the names that an assignment binds are defined as variables.

A target can hold targets to any depth: in a tuple, in a list, behind a star (`boundNames`).  The
outline takes a name that is a target itself or an element of one.  These are among the bound names,
in their order (`sublist_boundBy`), and they are all of them exactly where nothing is bound deeper
down (`assignedNames_eq_iff`, `IsShallow`).

The main statement says so of the assignments of a module and of those in the bodies of its classes
(`variables_of_convert`).
-/
import CodeOutline.Proofs.Python.Arrangement

namespace CodeOutline.Python

open Outcome

variable {t : LineIndex} {outer : Option Node} {root n s : Node}

/-! ### Names that targets bind -/

/-- Whether a target is made of others. -/
def Node.isSequence (n : Node) : Bool := n.kind == "Tuple" || n.kind == "List"

mutual

/-- The names that a target binds, in source order.  A name binds itself, a tuple or a list what its
elements bind, and a starred target what stands behind the star. -/
def boundNames : Node → List Node
  | ⟨role, kind, range, attributes, cs⟩ =>
    let n : Node := ⟨role, kind, range, attributes, cs⟩
    if n.isName then [n]
    else if n.isSequence then boundNamesAmong "elts" cs
    else if kind = "Starred" then boundNamesAmong "value" cs
    else []

/-- The names that those of some targets bind which have a role. -/
def boundNamesAmong (role : String) : List Node → List Node
  | [] => []
  | n :: ns => (if n.role = role then boundNames n else []) ++ boundNamesAmong role ns

end

/-- The names that an assignment binds: those of all its targets, or its target if that has an
annotation and is a name. -/
def boundBy (s : Node) : List Node :=
  if s.kind = "AnnAssign" then (targetsOf s).filter Node.isName
  else (targetsOf s).flatMap boundNames

/-- What a target is made of: the elements of a tuple or a list, or the target itself. -/
def elementsOf (n : Node) : List Node := if n.isSequence then n.inRole "elts" else [n]

theorem boundNames_of_isName (h : n.isName = true) : boundNames n = [n] := by
  obtain ⟨role, kind, range, attributes, cs⟩ := n
  rw [boundNames, if_pos h]

theorem boundNames_of_isGap (h : n.isGap = true) : boundNames n = [] := by
  obtain ⟨role, kind, range, attributes, cs⟩ := n
  obtain rfl : kind = "" := by simpa [Node.isGap] using h
  simp [boundNames, Node.isName, Node.isSequence]

/-- Empty places bind nothing. -/
theorem boundNamesAmong_eq (role : String) (ns : List Node) :
    boundNamesAmong role ns
      = (ns.filter (fun c => c.role == role && !c.isGap)).flatMap boundNames := by
  induction ns with
  | nil => rfl
  | cons n ns ih =>
    rw [boundNamesAmong, ih, List.filter_cons]
    by_cases hrole : n.role = role
    · by_cases hgap : n.isGap = true
      · simp [hrole, hgap, boundNames_of_isGap hgap]
      · simp [hrole, hgap]
    · simp [hrole]

/-- A target binds what its elements bind. -/
theorem flatMap_boundNames_elementsOf (n : Node) :
    (elementsOf n).flatMap boundNames = boundNames n := by
  unfold elementsOf
  by_cases hseq : n.isSequence = true
  · rw [if_pos hseq]
    obtain ⟨role, kind, range, attributes, cs⟩ := n
    have hname : ¬ (Node.isName ⟨role, kind, range, attributes, cs⟩ = true) := by
      simp only [Node.isSequence, Node.isName, Bool.or_eq_true, beq_iff_eq] at hseq ⊢
      rcases hseq with rfl | rfl <;> decide
    rw [boundNames, if_neg hname, if_pos hseq, boundNamesAmong_eq]
    rfl
  · rw [if_neg hseq, List.flatMap_singleton]

theorem targetNames_eq (n : Node) : targetNames n = (elementsOf n).filter Node.isName := rfl

/-! ### Names that are found -/

/-- Nothing is bound deeper down than by the elements of targets; and a target with an annotation is
a name, or has no names for elements. -/
structure IsShallow (s : Node) : Prop where
  plain : s.kind ≠ "AnnAssign" → ∀ target ∈ targetsOf s, ∀ e ∈ elementsOf target,
    e.isName = false → boundNames e = []
  annotated : s.kind = "AnnAssign" → ∀ target ∈ targetsOf s, target.isName = false →
    ∀ e ∈ elementsOf target, e.isName = false

instance (s : Node) : Decidable (IsShallow s) :=
  decidable_of_iff
    ((s.kind ≠ "AnnAssign" → ∀ target ∈ targetsOf s, ∀ e ∈ elementsOf target,
      e.isName = false → (boundNames e).isEmpty = true) ∧
    (s.kind = "AnnAssign" → ∀ target ∈ targetsOf s, target.isName = false →
      ∀ e ∈ elementsOf target, e.isName = false))
    (by
      simp only [List.isEmpty_iff]
      exact ⟨fun ⟨hplain, hannotated⟩ => ⟨hplain, hannotated⟩, fun h => ⟨h.plain, h.annotated⟩⟩)

section

variable {α : Type} {p : α → Bool} {f : α → List α}

/-- Items that stand for themselves are among what all items stand for. -/
theorem filter_sublist_flatMap (h : ∀ x, p x = true → f x = [x]) (xs : List α) :
    (xs.filter p).Sublist (xs.flatMap f) := by
  induction xs with
  | nil => exact .slnil
  | cons x xs ih =>
    rw [List.flatMap_cons]
    by_cases hx : p x = true
    · rw [List.filter_cons_of_pos hx, h x hx]
      exact ih.cons_cons x
    · rw [List.filter_cons_of_neg hx]
      exact ih.trans (List.sublist_append_right _ _)

/-- They are all of it if the others stand for nothing. -/
theorem filter_eq_flatMap_iff (h : ∀ x, p x = true → f x = [x]) {xs : List α} :
    xs.filter p = xs.flatMap f ↔ ∀ x ∈ xs, p x = false → f x = [] := by
  induction xs with
  | nil => simp
  | cons x xs ih =>
    rw [List.flatMap_cons, List.forall_mem_cons, ← ih]
    by_cases hx : p x = true
    · rw [List.filter_cons_of_pos hx, h x hx]
      simp [hx]
    · rw [List.filter_cons_of_neg hx]
      constructor
      · intro heq
        -- what the item stands for would be too much
        have hle := (filter_sublist_flatMap h xs).length_le
        have hlength := congrArg List.length heq
        rw [List.length_append] at hlength
        have hnil : f x = [] := List.eq_nil_of_length_eq_zero (by omega)
        rw [hnil, List.nil_append] at heq
        exact ⟨fun _ => hnil, heq⟩
      · rintro ⟨hnil, heq⟩
        rw [hnil (by simpa using hx), List.nil_append, heq]

end

theorem targetNames_of_isName (h : n.isName = true) : targetNames n = [n] := by
  have hseq : n.isSequence = false := by
    simp only [Node.isName, beq_iff_eq] at h
    simp [Node.isSequence, h]
  rw [targetNames_eq, elementsOf, if_neg (by simp [hseq]), List.filter_cons_of_pos h,
    List.filter_nil]

theorem targetNames_eq_nil_iff : targetNames n = [] ↔ ∀ e ∈ elementsOf n, e.isName = false := by
  rw [targetNames_eq, List.filter_eq_nil_iff]
  simp

/-- Without an annotation, names are found among the elements of targets, and bound by them. -/
theorem assignedNames_eq (s : Node) :
    assignedNames s = ((targetsOf s).flatMap elementsOf).filter Node.isName := by
  rw [List.filter_flatMap]
  rfl

theorem boundBy_eq (h : s.kind ≠ "AnnAssign") :
    boundBy s = ((targetsOf s).flatMap elementsOf).flatMap boundNames := by
  rw [boundBy, if_neg h, List.flatMap_assoc]
  simp only [flatMap_boundNames_elementsOf]

/-- Of the names that an assignment binds those are found that are targets or elements of one. -/
theorem assignedNames_sublist (h : s.kind ≠ "AnnAssign") :
    (assignedNames s).Sublist (boundBy s) := by
  rw [assignedNames_eq, boundBy_eq h]
  exact filter_sublist_flatMap (fun _ => boundNames_of_isName) _

theorem boundBy_sublist (h : s.kind = "AnnAssign") : (boundBy s).Sublist (assignedNames s) := by
  rw [boundBy, if_pos h]
  exact filter_sublist_flatMap (fun _ => targetNames_of_isName) _

/-- All names that an assignment binds are found, and no others, if it is shallow. -/
theorem assignedNames_eq_iff : assignedNames s = boundBy s ↔ IsShallow s := by
  by_cases h : s.kind = "AnnAssign"
  · rw [boundBy, if_pos h, eq_comm]
    refine (filter_eq_flatMap_iff fun _ => targetNames_of_isName).trans ?_
    simp only [targetNames_eq_nil_iff]
    exact ⟨fun hall => ⟨fun hne => absurd h hne, fun _ => hall⟩, fun hall => hall.annotated h⟩
  · rw [assignedNames_eq, boundBy_eq h, filter_eq_flatMap_iff fun _ => boundNames_of_isName,
      List.forall_mem_flatMap]
    exact ⟨fun hall => ⟨fun _ => hall, fun heq => absurd heq h⟩, fun hall => hall.plain h⟩

/-! ### Variables of an assignment -/

/-- A definition is the variable for a name that an assignment binds. -/
structure IsVariable (t : LineIndex) (outer : Option Node) (s name : Node)
    (d : Definition.Content) : Prop where
  name : ∃ id, name.text? "id" = some id ∧ d.name = .text id
  kind : d.kind = .variable
  span : spanOf t s = .ok (d.scope.start, d.scope.stop)
  position : d.position = d.scope.start
  declaring : DeclaredIn outer d.metadata

/-- Definitions are the variables of an assignment, one for each name that is found, in source order.
They are those of all names that it binds exactly if it is shallow. -/
structure VariablesRead (t : LineIndex) (outer : Option Node) (s : Node)
    (ds : List Definition.Content) : Prop where
  found : List.Forall₂ (IsVariable t outer s) (assignedNames s) ds
  bound : s.kind ≠ "AnnAssign" → (assignedNames s).Sublist (boundBy s)
  all_iff : List.Forall₂ (IsVariable t outer s) (boundBy s) ds ↔ IsShallow s

theorem Node.isFunction_of_isAssignment (h : s.isAssignment = true) : s.isFunction = false := by
  simp only [isAssignment, Bool.or_eq_true, beq_iff_eq] at h
  rcases h with h | h <;> simp [isFunction, h]

theorem isVariable_of_isBinding {name : Node} {d : Definition.Content}
    (hs : s.isFunction = false) (h : IsBinding t outer (s, name) d) :
    IsVariable t outer s name d where
  name := by simpa [boundName, hs] using h.name
  kind := by simpa [bindingKind, hs] using h.kind
  span := h.span
  position := h.position
  declaring := h.declaring

theorem variablesRead_of_assignedVariables {owner : Option String} {ds : List Definition.Content}
    (howner : IsOwner outer owner) (ha : s.isAssignment = true)
    (h : assignedVariables t owner s = .ok ds) : VariablesRead t outer s ds := by
  have hs := Node.isFunction_of_isAssignment ha
  have hbindings := forall₂_isBinding_of_assignedVariables howner hs ha h
  rw [bindings, if_neg (by simp [hs]), if_pos ha, List.forall₂_map_left_iff] at hbindings
  have hfound := hbindings.imp fun _ _ hb => isVariable_of_isBinding hs hb
  refine ⟨hfound, assignedNames_sublist, fun hall => assignedNames_eq_iff.mp ?_, fun hshallow => ?_⟩
  · -- there are as many names as definitions
    have hlength : (assignedNames s).length = (boundBy s).length :=
      hfound.length_eq.trans hall.length_eq.symm
    by_cases hann : s.kind = "AnnAssign"
    · exact ((boundBy_sublist hann).eq_of_length hlength.symm).symm
    · exact (assignedNames_sublist hann).eq_of_length hlength
  · rwa [← assignedNames_eq_iff.mpr hshallow]

/-! ### Variables of a module -/

theorem statementDefinitions_of_isAssignment (ha : s.isAssignment = true) :
    statementDefinitions t s = assignedVariables t none s := by
  have hs := Node.isFunction_of_isAssignment ha
  have hgap : s.isGap = false := by
    simp only [Node.isAssignment, Bool.or_eq_true, beq_iff_eq] at ha
    rcases ha with ha | ha <;> simp [Node.isGap, ha]
  rw [statementDefinitions, if_neg (by simp [hgap]), if_neg (by simp [hs]), if_pos ha]

theorem memberDefinitions_of_isAssignment (owner : Option String) (ha : s.isAssignment = true) :
    memberDefinitions t owner s = assignedVariables t owner s := by
  have hs := Node.isFunction_of_isAssignment ha
  rw [memberDefinitions, if_neg (by simp [hs]), if_pos ha]

theorem exists_infix_of_mem {α β ε : Type} {f : α → Except ε (List β)} {xs : List α} {ys : List β}
    {x : α} (h : (xs.mapM f).map List.flatten = .ok ys) (hx : x ∈ xs) :
    ∃ l, f x = .ok l ∧ l <:+: ys := by
  obtain ⟨yss, hyss, rfl⟩ := map_eq_ok_iff.mp h
  obtain ⟨l, hl, hf⟩ := exists_of_forall₂_of_mem (mapM_eq_ok_iff.mp hyss).flip hx
  exact ⟨l, hf, List.infix_of_mem_flatten hl⟩

/-- The definitions of a class in a statement of a module stand among those of the statement. -/
theorem exists_classDefinitions {ds : List Definition.Content} {c : Option Node × Node}
    (hs : ClassesAreStatements s) (h : statementDefinitions t s = .ok ds)
    (hc : c ∈ classesWithin none s) :
    ∃ block, classDefinitions t (locate c) = .ok block ∧ block <:+: ds ∧
      IsOwner c.1 (locate c).owner := by
  have hclasses : classesAt none s = (classesWithin none s).map locate := classesAt_eq hs none
  have hblock : ∀ ds', allClassDefinitions t (classesAt none s) = .ok ds' →
      ∃ block, classDefinitions t (locate c) = .ok block ∧ block <:+: ds' ∧
        IsOwner c.1 (locate c).owner := by
    intro ds' h
    rw [hclasses] at h
    obtain ⟨block, hblock, hinfix⟩ := exists_infix_of_mem h (List.mem_map_of_mem hc)
    exact ⟨block, hblock, hinfix, isOwner_of_allClassDefinitions h c hc⟩
  rcases statementDefinitions_cases h with ⟨-, f, nested, -, hnested, rfl⟩ | ⟨-, ha, -⟩ | ⟨-, -, h⟩
  · -- a function, which is defined before the classes in it
    obtain ⟨block, hdefs, hinfix, howner⟩ := hblock nested hnested
    exact ⟨block, hdefs, hinfix.trans (List.suffix_cons f nested).isInfix, howner⟩
  · rw [hs.classesWithin_of_isAssignment ha none] at hc
    cases hc
  · exact hblock ds h

/-- The members of a concrete class come statement by statement. -/
theorem exists_members {c : LocatedClass} {d : Definition.Content} {ms : List Definition.Content}
    (hkind : classKind c.node = .type) (h : classDefinitions t c = .ok (d :: ms)) :
    ∃ mss, ms = mss.flatten ∧ List.Forall₂ (fun s ms =>
      memberDefinitions t (c.node.text? "name") s = .ok ms ∧
        (s.isAssignment = true → VariablesRead t (some c.node) s ms)) c.node.body mss := by
  obtain ⟨name, ms', _, _, _, _, hname, hms, -, -, -, -, hcons⟩ := exists_of_classDefinitions h
  obtain ⟨-, rfl⟩ := List.cons.inj hcons
  have howner : IsOwner (some c.node) (c.node.text? "name") := by
    rw [hname]
    exact .some hname
  rw [members, if_pos hkind] at hms
  obtain ⟨mss, hmss, rfl⟩ := map_eq_ok_iff.mp hms
  refine ⟨mss, rfl, (mapM_eq_ok_iff.mp hmss).imp fun s ms hs => ⟨hs, fun ha => ?_⟩⟩
  rw [memberDefinitions_of_isAssignment _ ha] at hs
  exact variablesRead_of_assignedVariables howner ha hs

/-- Every class of a module stands in a statement of it. -/
theorem classesWithin_eq_flatMap (hkind : root.kind = "Module") (h : ClassesAreStatements root)
    (hgaps : root.places "body" = root.body) :
    classesWithin none root = root.body.flatMap (classesWithin none) := by
  rw [← filterMap_class?_declarations hkind h hgaps, declarations, List.filterMap_flatMap]
  simp only [filterMap_class?_declarationsAt]

/-- Where classes are statements, the definitions that a module has for an assignment of its own, or
of the body of a concrete class at any depth, are the variables of the names that are targets or
elements of one; these are exactly the names that it binds if and only if it is shallow. -/
theorem variables_of_convert {ids : IdSource} {workingDirectory : List String}
    {sourceRoot : Option Path} {p : Parsed Node} {u : CodeUnit} (hroot : p.tree? = some root)
    (hkind : root.kind = "Module") (hclasses : ClassesAreStatements root)
    (h : convert ids workingDirectory sourceRoot (some p) = .ok u) :
    (∃ dss, u.definitions.map Definition.toContent = dss.flatten ∧
      List.Forall₂ (fun s ds => statementDefinitions (.ofSource p.source) s = .ok ds ∧
        (s.isAssignment = true → VariablesRead (.ofSource p.source) none s ds)) root.body dss) ∧
    ∀ c ∈ root.preorder, c.isClass = true → classKind c = .type →
      ∃ outer d mss, (d :: mss.flatten) <:+: u.definitions.map Definition.toContent ∧
        IsClassOutline (.ofSource p.source) outer c d mss.flatten ∧
        List.Forall₂ (fun s ms =>
          memberDefinitions (.ofSource p.source) (c.text? "name") s = .ok ms ∧
          (s.isAssignment = true → VariablesRead (.ofSource p.source) (some c) s ms))
          c.body mss := by
  obtain ⟨root', parts, o, hroot', -, ho, hu⟩ := convert_eq_ok_iff.mp h
  obtain rfl : root = root' := Option.some.inj (hroot.symm.trans hroot')
  obtain ⟨ds, imports, documentation, hds, -, -, rfl⟩ := outline_eq_ok_iff.mp ho
  obtain ⟨-, rfl⟩ := Outline.toUnit_eq_ok_iff.mp hu
  obtain ⟨dss, hdss, rfl⟩ := map_eq_ok_iff.mp hds
  have hgaps := places_eq_body_of_mapM hdss
  rw [hgaps, mapM_eq_ok_iff] at hdss
  have hcontents : (Outline.number ids 1 dss.flatten).map Definition.toContent = dss.flatten :=
    Outline.map_toContent_number ids 1 _
  dsimp only
  rw [hcontents]
  constructor
  · refine ⟨dss, rfl, hdss.imp fun s ds hs => ⟨hs, fun ha => ?_⟩⟩
    rw [statementDefinitions_of_isAssignment ha] at hs
    exact variablesRead_of_assignedVariables .none ha hs
  · intro c hc hclass hconcrete
    -- the class stands in a statement of the module, with its members behind it
    have hmem : c ∈ (classesWithin none root).map Prod.snd := by
      rw [map_snd_classesWithin]
      exact List.mem_filter.mpr ⟨hc, hclass⟩
    rw [classesWithin_eq_flatMap hkind hclasses hgaps] at hmem
    obtain ⟨⟨outer, c⟩, hlocated, rfl⟩ := List.mem_map.mp hmem
    obtain ⟨s, hs, hwithin⟩ := List.mem_flatMap.mp hlocated
    obtain ⟨ds, hds, hdefs⟩ := exists_of_forall₂_of_mem hdss.flip hs
    obtain ⟨block, hblock, hinfix, howner⟩ := exists_classDefinitions
      (hclasses.child (Node.mem_children_of_mem_inRole hs)) hdefs hwithin
    obtain ⟨d, ms, rfl, houtline⟩ := isClassOutline_of_classDefinitions howner hblock
    obtain ⟨mss, rfl, hmss⟩ := exists_members hconcrete hblock
    exact ⟨outer, d, mss, hinfix.trans (List.infix_of_mem_flatten hds), houtline, hmss⟩

/-! ### Names in a tuple in a tuple -/

/-- An assignment to a name and to a tuple of a name and a starred name. -/
def nestedAssignment : Node :=
  ⟨"body", "Assign", some ⟨1, 0, some 1, some 14⟩, [], [
    ⟨"targets", "Tuple", some ⟨1, 0, some 1, some 10⟩, [], [
      ⟨"elts", "Name", some ⟨1, 0, some 1, some 1⟩, [("id", .text "a")], []⟩,
      ⟨"elts", "Tuple", some ⟨1, 3, some 1, some 10⟩, [], [
        ⟨"elts", "Name", some ⟨1, 4, some 1, some 5⟩, [("id", .text "b")], []⟩,
        ⟨"elts", "Starred", some ⟨1, 7, some 1, some 9⟩, [], [
          ⟨"value", "Name", some ⟨1, 8, some 1, some 9⟩, [("id", .text "c")], []⟩]⟩]⟩]⟩,
    ⟨"value", "Name", some ⟨1, 13, some 1, some 14⟩, [("id", .text "d")], []⟩]⟩

/-- A class with an assignment to two targets in its body. -/
def chainedClass : Node :=
  ⟨"body", "ClassDef", some ⟨2, 0, some 3, some 11⟩, [("name", .text "K")], [
    ⟨"body", "Assign", some ⟨3, 2, some 3, some 11⟩, [], [
      ⟨"targets", "Name", some ⟨3, 2, some 3, some 3⟩, [("id", .text "x")], []⟩,
      ⟨"targets", "Name", some ⟨3, 6, some 3, some 7⟩, [("id", .text "y")], []⟩,
      ⟨"value", "Constant", some ⟨3, 10, some 3, some 11⟩, [("value", .literal (.int "1"))], []⟩]⟩]⟩

/-- The tree of a module with these two statements. -/
def nestedTree : Node := ⟨"", "Module", none, [], [nestedAssignment, chainedClass]⟩

/-- What a parser makes of the text of `nestedTree`. -/
def nested : Parsed Node where
  path := none
  source := "a, (b, *c) = d\nclass K:\n  x = y = 1\n".toUTF8.toList
  tree := some nestedTree
  problems := []

/-- The names in the inner tuple are missing, while both targets of the class are there. -/
theorem variables_of_convert_nested :
    ClassesAreStatements nestedTree ∧
    ∃ u dss d mss, convert toString [] none (some nested) = .ok u ∧
      u.definitions.map Definition.toContent = dss.flatten ∧
      List.Forall₂ (fun s ds => s.isAssignment = true →
        ¬ List.Forall₂ (IsVariable (.ofSource nested.source) none s) (boundBy s) ds)
        nestedTree.body dss ∧
      (d :: mss.flatten) <:+: u.definitions.map Definition.toContent ∧
      List.Forall₂ (fun s ms =>
        List.Forall₂ (IsVariable (.ofSource nested.source) (some chainedClass) s) (boundBy s) ms)
        chainedClass.body mss := by
  have hclasses : ClassesAreStatements nestedTree := by decide +kernel
  have hclass : chainedClass ∈ nestedTree.preorder := by
    rw [Node.preorder_eq]
    exact List.mem_cons_of_mem _ (Node.mem_preorders_of_mem
      (List.mem_cons_of_mem _ List.mem_cons_self) (Node.mem_preorder_self _))
  have hdeep : ∀ s ∈ nestedTree.body, s.isAssignment = true → ¬ IsShallow s := by decide +kernel
  have hshallow : ∀ s ∈ chainedClass.body, s.isAssignment = true ∧ IsShallow s := by decide +kernel
  have hok : (convert toString [] none (some nested)).isOk = true := by decide +kernel
  obtain ⟨u, hu⟩ := exists_eq_ok_of_isOk hok
  obtain ⟨⟨dss, hflat, hdss⟩, hmembers⟩ :=
    variables_of_convert (rfl : nested.tree? = some nestedTree) rfl hclasses hu
  obtain ⟨_, d, mss, hinfix, -, hmss⟩ := hmembers chainedClass hclass rfl (by decide +kernel)
  refine ⟨hclasses, u, dss, d, mss, hu, hflat, ?_, hinfix, ?_⟩
  · refine ((List.forall₂_and_left _ _).mpr ⟨hdeep, hdss⟩).imp ?_
    rintro s ds ⟨hs, -, hread⟩ ha hall
    exact hs ha ((hread ha).all_iff.mp hall)
  · refine ((List.forall₂_and_left _ _).mpr ⟨hshallow, hmss⟩).imp ?_
    rintro s ms ⟨⟨ha, hs⟩, -, hread⟩
    exact (hread ha).all_iff.mpr hs

/-- Not for all names that an assignment binds there are variables. -/
theorem not_forall_variables :
    ¬ ∀ (p : Parsed Node) (root : Node) (u : CodeUnit), p.tree? = some root →
      root.kind = "Module" → ClassesAreStatements root →
      convert toString [] none (some p) = .ok u →
      ∃ dss, u.definitions.map Definition.toContent = dss.flatten ∧
        List.Forall₂ (fun s ds => statementDefinitions (.ofSource p.source) s = .ok ds ∧
          (s.isAssignment = true →
            List.Forall₂ (IsVariable (.ofSource p.source) none s) (boundBy s) ds))
          root.body dss := by
  intro hall
  have hclasses : ClassesAreStatements nestedTree := by decide +kernel
  have hdeep : ¬ IsShallow nestedAssignment := by decide +kernel
  have hok : (convert toString [] none (some nested)).isOk = true := by decide +kernel
  obtain ⟨u, hu⟩ := exists_eq_ok_of_isOk hok
  obtain ⟨dss, -, hdss⟩ := hall nested nestedTree u rfl rfl hclasses hu
  have hbody : nestedTree.body = [nestedAssignment, chainedClass] := rfl
  rw [hbody] at hdss
  cases hdss with
  | cons hfirst _ =>
    obtain ⟨hdefs, hvariables⟩ := hfirst
    rw [statementDefinitions_of_isAssignment rfl] at hdefs
    have hread := variablesRead_of_assignedVariables .none rfl hdefs
    exact hdeep (hread.all_iff.mp (hvariables rfl))

end CodeOutline.Python
