/-
CodeOutline/Proofs/Python/Making.lean

How the definitions of a module come about.

A definition is made of a statement: the statement is framed, with the scopes that it has to hold,
and the frame is given a name and facts (`Made`).  All definitions of a module are made in this way
(`forall_made_of_definitions`), so what holds of them all is shown by induction on it.
-/
import CodeOutline.Proofs.Entity.Elementary
import CodeOutline.Python.Outline

namespace CodeOutline.Python

open Outcome

/-! ### Nodes of a tree -/

namespace Node

theorem mem_preorder_self (n : Node) : n ∈ n.preorder := by
  rw [preorder_eq]
  exact List.mem_cons_self

theorem mem_preorders_of_mem {ns : List Node} {n x : Node} (hn : n ∈ ns) (hx : x ∈ n.preorder) :
    x ∈ preorders ns := by
  induction ns with
  | nil => cases hn
  | cons m ms ih =>
    rw [preorders, List.mem_append]
    rcases List.mem_cons.mp hn with rfl | hn
    · exact .inl hx
    · exact .inr (ih hn)

theorem mem_preorder_of_mem_children {n c x : Node} (hc : c ∈ n.children) (hx : x ∈ c.preorder) :
    x ∈ n.preorder := by
  rw [preorder_eq]
  exact List.mem_cons_of_mem _ (mem_preorders_of_mem hc hx)

mutual

theorem preorder_subset_preorder {n x : Node} (hx : x ∈ n.preorder) :
    ∀ y ∈ x.preorder, y ∈ n.preorder := by
  match n with
  | ⟨role, kind, range, attributes, cs⟩ =>
    rw [preorder] at hx
    rcases List.mem_cons.mp hx with rfl | hx
    · exact fun y hy => hy
    · -- a node below one of the children
      intro y hy
      rw [preorder]
      exact List.mem_cons_of_mem _ (preorder_subset_preorders hx y hy)

theorem preorder_subset_preorders {ns : List Node} {x : Node} (hx : x ∈ preorders ns) :
    ∀ y ∈ x.preorder, y ∈ preorders ns := by
  match ns with
  | [] => cases hx
  | n :: ns =>
    intro y hy
    rw [preorders, List.mem_append] at hx ⊢
    rcases hx with hx | hx
    · exact .inl (preorder_subset_preorder hx y hy)
    · exact .inr (preorder_subset_preorders hx y hy)

end

/-- The children of a node of a tree are nodes of it. -/
theorem mem_preorder_child {root n c : Node} (hn : n ∈ root.preorder) (hc : c ∈ n.children) :
    c ∈ root.preorder :=
  preorder_subset_preorder hn c (mem_preorder_of_mem_children hc (mem_preorder_self c))

theorem mem_children_of_mem_places {n c : Node} {role : String} (h : c ∈ n.places role) :
    c ∈ n.children := List.mem_of_mem_filter h

theorem mem_children_of_mem_inRole {n c : Node} {role : String} (h : c ∈ n.inRole role) :
    c ∈ n.children := List.mem_of_mem_filter h

end Node

variable {t : LineIndex} {root n : Node}

/-! ### Parts of a definition -/

theorem mem_of_mem_named {ns : List Node} {x : String × Node} (h : x ∈ named ns) : x.2 ∈ ns := by
  obtain ⟨n, hn, hx⟩ := List.mem_filterMap.mp h
  split at hx
  · cases hx
  · split at hx
    · cases hx
    · cases hx
      exact hn

theorem nameIn_eq_ok_iff {field name : String} {n : Node} :
    nameIn field n = .ok name ↔ n.text? field = some name := by
  unfold nameIn
  split
  · next e => rw [e, Except.ok.injEq, Option.some.injEq]
  · next e => simp [e]

theorem frame_eq_ok_iff {level : ScopeLevel} {n : Node} {children : List Scope} {f : Frame} :
    frame t level n children = .ok f ↔
      (∃ r, spanOf t n = .ok r ∧ Scope.make level r.1 r.2 children = .ok f.scope) ∧
      docstringOf t n = .ok f.documentation ∧ decoratorReferences t n = .ok f.references := by
  simp only [frame, bind_eq_ok_iff, built_eq_ok_iff, pure_eq, Except.ok.injEq]
  constructor
  · rintro ⟨r, hr, scope, hs, documentation, hd, references, hrefs, rfl⟩
    exact ⟨⟨r, hr, hs⟩, hd, hrefs⟩
  · rintro ⟨⟨r, hr, hs⟩, hd, hrefs⟩
    exact ⟨r, hr, _, hs, _, hd, _, hrefs, rfl⟩

/-- What the frame of a definition says about its scope. -/
theorem scope_of_frame {level : ScopeLevel} {n : Node} {children : List Scope} {f : Frame}
    (h : frame t level n children = .ok f) :
    spanOf t n = .ok (f.scope.start, f.scope.stop) ∧ f.scope.children = children := by
  obtain ⟨⟨r, hr, hscope⟩, -, -⟩ := frame_eq_ok_iff.mp h
  obtain ⟨-, -, e⟩ := Scope.make_eq_ok_iff.mp hscope
  rw [e]
  exact ⟨hr, rfl⟩

theorem define_eq_ok_iff {f : Frame} {name : String} {kind : DefinitionKind}
    {owner : Option String} {references : List Reference} {facts : List (Scalar × Value)}
    {d : Definition.Content} :
    f.define name kind owner references facts = .ok d ↔
      Text.allBlank name = false ∧
      d = ⟨name, kind, f.scope, f.scope.start, f.references ++ references, f.documentation,
        Metadata.ofEntries (declaringType owner ++ facts)⟩ := by
  rw [Frame.define, built_eq_ok_iff, Definition.Content.make_eq_ok_iff]

/-! ### Facts -/

theorem elementary_of_annotationText {declared : Option Node} {v : Value}
    (h : annotationText declared = .ok v) : v.Elementary := by
  cases declared with
  | none =>
    cases h
    exact .scalar trivial
  | some n =>
    obtain ⟨text, -, h⟩ := bind_eq_ok_iff.mp h
    cases h
    exact .scalar trivial

theorem elementary_of_parameterNames {n : Node} {skipFirst : Bool} {vs : List Value}
    (h : parameterNames n skipFirst = .ok vs) : ∀ v ∈ vs, v.Elementary := by
  have hname : ∀ (a : Node) (v : Value), parameterName a = .ok v → v.Elementary := by
    intro a v hv
    unfold parameterName at hv
    split at hv
    · cases hv
    · cases hv
      exact Value.elementary_textOrNull _
  unfold parameterNames at h
  split at h
  · cases h
  · simp only [bind_eq_ok_iff, pure_eq, Except.ok.injEq] at h
    obtain ⟨positional, hpositional, others, hothers, rfl⟩ := h
    have hfirst := forall_mem_of_mapM hpositional fun a _ => hname a
    refine List.forall_mem_append.mpr ⟨?_, forall_mem_of_mapM hothers fun a _ => hname a⟩
    split
    · exact fun v hv => hfirst v (List.mem_of_mem_drop hv)
    · exact hfirst

theorem elementary_of_classFacts {n : Node} {facts : List (Scalar × Value)}
    (h : classFacts n = .ok facts) : ∀ e ∈ facts, e.2.Elementary := by
  unfold classFacts at h
  split at h
  · cases h
    simp
  · obtain ⟨constants, -, h⟩ := bind_eq_ok_iff.mp h
    cases h
    simp
  · obtain ⟨isAbstract, -, h⟩ := bind_eq_ok_iff.mp h
    cases h
    simp

/-! ### Definitions -/

/-- Whether a node is a statement that gives definitions. -/
def Node.isDefining (n : Node) : Bool := n.isClass || n.isFunction || n.isAssignment

theorem Node.isDefining_of_isClass (h : n.isClass = true) : n.isDefining = true := by
  simp [isDefining, h]

theorem Node.isDefining_of_isFunction (h : n.isFunction = true) : n.isDefining = true := by
  simp [isDefining, h]

theorem Node.isDefining_of_isAssignment (h : n.isAssignment = true) : n.isDefining = true := by
  simp [isDefining, h]

/-- Scopes that the scope of a statement may have to hold: none, or those of the members of a class
with a name. -/
def AreHeld (t : LineIndex) (n : Node) (children : List Scope) : Prop :=
  children = [] ∨ ∃ name ms, n.text? "name" = some name ∧ members t n = .ok ms ∧
    children = ms.map (·.scope)

/-- A definition is made of a statement, with references to bases where it is a class, and the
definitions whose scopes it holds are made of statements too. -/
inductive Made (t : LineIndex) (root : Node) : Definition.Content → Prop
  | define {n : Node} {level : ScopeLevel} {ms : List Definition.Content} {f : Frame}
    {name : String} {kind : DefinitionKind} {owner : Option String} {references : List Reference}
    {facts : List (Scalar × Value)} {d : Definition.Content} (hn : n ∈ root.preorder)
    (hdefining : n.isDefining = true) (hheld : AreHeld t n (ms.map (·.scope)))
    (hmembers : ∀ m ∈ ms, Made t root m)
    (hframe : frame t level n (ms.map (·.scope)) = .ok f)
    (hreferences : references = [] ∨ baseReferences t n = .ok references)
    (hfacts : ∀ e ∈ facts, e.2.Elementary)
    (hdefine : f.define name kind owner references facts = .ok d) : Made t root d

/-- A definition that holds no scopes and refers to no bases. -/
theorem Made.alone {level : ScopeLevel} {f : Frame} {name : String} {kind : DefinitionKind}
    {owner : Option String} {facts : List (Scalar × Value)} {d : Definition.Content}
    (hn : n ∈ root.preorder) (hdefining : n.isDefining = true)
    (hframe : frame t level n [] = .ok f) (hfacts : ∀ e ∈ facts, e.2.Elementary)
    (hdefine : f.define name kind owner [] facts = .ok d) : Made t root d :=
  have hnone : ∀ m ∈ ([] : List Definition.Content), Made t root m := by simp
  .define hn hdefining (.inl rfl) hnone hframe (.inl rfl) hfacts hdefine

theorem made_of_function {owner : Option String} {d : Definition.Content}
    (hn : n ∈ root.preorder) (hfunction : n.isFunction = true) (h : function t owner n = .ok d) :
    Made t root d := by
  have hdefining := Node.isDefining_of_isFunction hfunction
  simp only [function, bind_eq_ok_iff, sound_eq_ok_iff] at h
  obtain ⟨name, -, f, hf, parameters, hparameters, h⟩ := h
  have hlist := Value.Elementary.list (elementary_of_parameterNames hparameters)
  -- a constructor has no type of its result
  split at h
  · simp only [pure_eq, ok_bind] at h
    exact .alone hn hdefining hf (by simpa using hlist) h
  · simp only [bind_eq_ok_iff, sound_eq_ok_iff, pure_eq, ok_bind] at h
    obtain ⟨type, htype, h⟩ := h
    have htype := elementary_of_annotationText htype
    exact .alone hn hdefining hf (by simpa using ⟨hlist, htype⟩) h

theorem made_of_property {owner : Option String} {d : Definition.Content}
    (hn : n ∈ root.preorder) (hfunction : n.isFunction = true) (h : property t owner n = .ok d) :
    Made t root d := by
  have hdefining := Node.isDefining_of_isFunction hfunction
  simp only [property, bind_eq_ok_iff, sound_eq_ok_iff] at h
  obtain ⟨name, -, f, hf, type, htype, h⟩ := h
  have htype := elementary_of_annotationText htype
  exact .alone hn hdefining hf (by simpa using htype) h

theorem forall_made_of_assignedVariables {owner : Option String} {ds : List Definition.Content}
    (hn : n ∈ root.preorder) (hassignment : n.isAssignment = true)
    (h : assignedVariables t owner n = .ok ds) : ∀ d ∈ ds, Made t root d := by
  have hdefining := Node.isDefining_of_isAssignment hassignment
  simp only [assignedVariables, bind_eq_ok_iff, sound_eq_ok_iff] at h
  obtain ⟨type, htype, h⟩ := h
  have htype := elementary_of_annotationText htype
  refine forall_mem_of_mapM h fun target _ d hd => ?_
  simp only [bind_eq_ok_iff] at hd
  obtain ⟨name, -, f, hf, hd⟩ := hd
  refine .alone hn hdefining hf ?_ hd
  split <;> simpa using htype

theorem forall_made_of_memberDefinitions {owner : Option String} {ds : List Definition.Content}
    (hn : n ∈ root.preorder) (h : memberDefinitions t owner n = .ok ds) :
    ∀ d ∈ ds, Made t root d := by
  unfold memberDefinitions at h
  -- a function, unless it belongs to a property, a property, an assignment, or nothing
  split at h
  · next hfunction =>
    split at h
    · cases h
      simp
    · split at h
      · obtain ⟨d, hd, rfl⟩ := map_eq_ok_iff.mp h
        exact List.forall_mem_singleton.mpr (made_of_property hn hfunction hd)
      · obtain ⟨d, hd, rfl⟩ := map_eq_ok_iff.mp h
        exact List.forall_mem_singleton.mpr (made_of_function hn hfunction hd)
  · split at h
    · next hassignment => exact forall_made_of_assignedVariables hn hassignment h
    · cases h
      simp

theorem forall_made_of_members {ds : List Definition.Content} (hn : n ∈ root.preorder)
    (h : members t n = .ok ds) : ∀ d ∈ ds, Made t root d := by
  unfold members at h
  split at h
  · refine forall_mem_of_flatten_mapM h fun s hs ds hds => ?_
    exact forall_made_of_memberDefinitions
      (Node.mem_preorder_child hn (Node.mem_children_of_mem_inRole hs)) hds
  · cases h
    simp

/-! ### Classes -/

mutual

theorem mem_preorder_of_mem_classesAt {owner : Option String} {n : Node} {c : LocatedClass}
    (h : c ∈ classesAt owner n) : c.node ∈ n.preorder := by
  match n with
  | ⟨role, kind, range, attributes, cs⟩ =>
    rw [classesAt] at h
    rw [Node.preorder]
    split at h
    · -- the node is a class itself
      rcases List.mem_cons.mp h with rfl | h
      · exact List.mem_cons_self
      · exact List.mem_cons_of_mem _ (mem_preorders_of_mem_classesIn h)
    · exact List.mem_cons_of_mem _ (mem_preorders_of_mem_classesIn h)

theorem mem_preorders_of_mem_classesIn {isOpen : String → Bool} {owner : Option String}
    {ns : List Node} {c : LocatedClass} (h : c ∈ classesIn isOpen owner ns) :
    c.node ∈ Node.preorders ns := by
  match ns with
  | [] => cases h
  | n :: ns =>
    rw [classesIn, List.mem_append] at h
    rw [Node.preorders, List.mem_append]
    rcases h with h | h
    · split at h
      · exact .inl (mem_preorder_of_mem_classesAt h)
      · cases h
    · exact .inr (mem_preorders_of_mem_classesIn h)

end

mutual

theorem isClass_of_mem_classesAt {owner : Option String} {n : Node} {c : LocatedClass}
    (h : c ∈ classesAt owner n) : c.node.isClass = true := by
  match n with
  | ⟨role, kind, range, attributes, cs⟩ =>
    rw [classesAt] at h
    split at h
    · next hkind =>
      rcases List.mem_cons.mp h with rfl | h
      · simp [Node.isClass, hkind]
      · exact isClass_of_mem_classesIn h
    · exact isClass_of_mem_classesIn h

theorem isClass_of_mem_classesIn {isOpen : String → Bool} {owner : Option String}
    {ns : List Node} {c : LocatedClass} (h : c ∈ classesIn isOpen owner ns) :
    c.node.isClass = true := by
  match ns with
  | [] => cases h
  | n :: ns =>
    rw [classesIn, List.mem_append] at h
    rcases h with h | h
    · split at h
      · exact isClass_of_mem_classesAt h
      · cases h
    · exact isClass_of_mem_classesIn h

end

/-- What the definitions of a class are put together of: its own, and those of its members. -/
theorem exists_of_classDefinitions {c : LocatedClass} {ds : List Definition.Content}
    (h : classDefinitions t c = .ok ds) :
    ∃ name ms f bases facts d, c.node.text? "name" = some name ∧ members t c.node = .ok ms ∧
      frame t (levelOf c.owner name) c.node (ms.map (·.scope)) = .ok f ∧
      baseReferences t c.node = .ok bases ∧ classFacts c.node = .ok facts ∧
      f.define name (classKind c.node) c.owner bases facts = .ok d ∧ ds = d :: ms := by
  simp only [classDefinitions, bind_eq_ok_iff, nameIn_eq_ok_iff, pure_eq, Except.ok.injEq] at h
  obtain ⟨ms, hms, name, hname, f, hf, bases, hbases, facts, hfacts, d, hd, _, -, rfl⟩ := h
  exact ⟨name, ms, f, bases, facts, d, hname, hms, hf, hbases, hfacts, hd, rfl⟩

theorem forall_made_of_classDefinitions {c : LocatedClass} {ds : List Definition.Content}
    (hc : c.node ∈ root.preorder) (hclass : c.node.isClass = true)
    (h : classDefinitions t c = .ok ds) : ∀ d ∈ ds, Made t root d := by
  have hdefining := Node.isDefining_of_isClass hclass
  obtain ⟨name, ms, f, bases, facts, d, hname, hms, hf, hbases, hfacts, hd, rfl⟩ :=
    exists_of_classDefinitions h
  have hmembers := forall_made_of_members hc hms
  have hheld : AreHeld t c.node (ms.map (·.scope)) := .inr ⟨name, ms, hname, hms, rfl⟩
  exact List.forall_mem_cons.mpr ⟨.define hc hdefining hheld hmembers hf (.inr hbases)
    (elementary_of_classFacts hfacts) hd, hmembers⟩

theorem forall_made_of_allClassDefinitions {owner : Option String} {ds : List Definition.Content}
    (hn : n ∈ root.preorder) (h : allClassDefinitions t (classesAt owner n) = .ok ds) :
    ∀ d ∈ ds, Made t root d := by
  refine forall_mem_of_flatten_mapM h fun c hc ds hds => ?_
  exact forall_made_of_classDefinitions
    (Node.preorder_subset_preorder hn c.node (mem_preorder_of_mem_classesAt hc))
    (isClass_of_mem_classesAt hc) hds

/-! ### Modules -/

/-- A statement gives the definitions of a function and of the classes in it, those of an assignment,
or those of the classes in it alone. -/
theorem statementDefinitions_cases {ds : List Definition.Content}
    (h : statementDefinitions t n = .ok ds) :
    (n.isFunction = true ∧ ∃ f nested, function t none n = .ok f ∧
      allClassDefinitions t (classesAt none n) = .ok nested ∧ ds = f :: nested) ∨
    (n.isFunction = false ∧ n.isAssignment = true ∧ assignedVariables t none n = .ok ds) ∨
    (n.isFunction = false ∧ n.isAssignment = false ∧
      allClassDefinitions t (classesAt none n) = .ok ds) := by
  unfold statementDefinitions at h
  split at h
  · cases h
  · split at h
    · next hfunction =>
      simp only [bind_eq_ok_iff, pure_eq, Except.ok.injEq] at h
      obtain ⟨f, hf, nested, hnested, rfl⟩ := h
      exact .inl ⟨hfunction, f, nested, hf, hnested, rfl⟩
    · next hfunction =>
      rw [Bool.not_eq_true] at hfunction
      split at h
      · next hassignment => exact .inr (.inl ⟨hfunction, hassignment, h⟩)
      · next hassignment =>
        exact .inr (.inr ⟨hfunction, by rwa [Bool.not_eq_true] at hassignment, h⟩)

theorem forall_made_of_statementDefinitions {ds : List Definition.Content}
    (hn : n ∈ root.preorder) (h : statementDefinitions t n = .ok ds) :
    ∀ d ∈ ds, Made t root d := by
  rcases statementDefinitions_cases h with ⟨hfunction, f, nested, hf, hnested, rfl⟩ |
    ⟨-, hassignment, h⟩ | ⟨-, -, h⟩
  · exact List.forall_mem_cons.mpr
      ⟨made_of_function hn hfunction hf, forall_made_of_allClassDefinitions hn hnested⟩
  · exact forall_made_of_assignedVariables hn hassignment h
  · exact forall_made_of_allClassDefinitions hn h

/-- All definitions of a module are made of its statements. -/
theorem forall_made_of_definitions {ds : List Definition.Content}
    (h : definitions t root = .ok ds) : ∀ d ∈ ds, Made t root d := by
  refine forall_mem_of_flatten_mapM h fun s hs ds hds => ?_
  exact forall_made_of_statementDefinitions
    (Node.mem_preorder_child (Node.mem_preorder_self root) (Node.mem_children_of_mem_places hs)) hds

/-- The facts about a module. -/
def moduleFacts (parts : List String) (imports : List Import) : List (Scalar × Value) :=
  [(.text "packageName", packageOf parts),
    (.text "imports", .list (imports.map (fun i => .textOrNull (i.fullName parts)))),
    (.text "language", "python")]

theorem outline_eq_ok_iff {name : String} {parts : List String} {o : Outline} :
    outline t name parts root = .ok o ↔
      ∃ ds imports documentation, definitions t root = .ok ds ∧ importsOf root = .ok imports ∧
        docstringOf t root = .ok documentation ∧
        o = ⟨name, .moduleUnit, ds, documentation, moduleFacts parts imports⟩ := by
  simp only [outline, bind_eq_ok_iff, sound_eq_ok_iff, pure_eq, Except.ok.injEq]
  constructor
  · rintro ⟨ds, hds, imports, himports, documentation, hdocumentation, rfl⟩
    exact ⟨ds, imports, documentation, hds, himports, hdocumentation, rfl⟩
  · rintro ⟨ds, imports, documentation, hds, himports, hdocumentation, rfl⟩
    exact ⟨ds, hds, imports, himports, documentation, hdocumentation, rfl⟩

theorem convert_eq_ok_iff {ids : IdSource} {workingDirectory : List String}
    {sourceRoot : Option Path} {p : Parsed Node} {u : CodeUnit} :
    convert ids workingDirectory sourceRoot (some p) = .ok u ↔
      ∃ root parts o, p.tree? = some root ∧
        moduleParts workingDirectory p.path sourceRoot = .ok parts ∧
        outline (.ofSource p.source) p.unitName parts root = .ok o ∧ o.toUnit ids = .ok u := by
  rw [convert, Parsed.requireTree_bind_eq_ok_iff]
  simp only [mapError_eq_ok_iff, bind_eq_ok_iff, built_eq_ok_iff, exists_and_left]

/-- All definitions in the unit of a module are made of its statements. -/
theorem forall_made_of_convert {ids : IdSource} {workingDirectory : List String}
    {sourceRoot : Option Path} {p : Parsed Node} {u : CodeUnit} (hroot : p.tree? = some root)
    (h : convert ids workingDirectory sourceRoot (some p) = .ok u) :
    ∀ d ∈ u.definitions, Made (.ofSource p.source) root d.toContent := by
  obtain ⟨root', parts, o, hroot', -, ho, hu⟩ := convert_eq_ok_iff.mp h
  obtain rfl : root = root' := Option.some.inj (hroot.symm.trans hroot')
  obtain ⟨ds, imports, documentation, hds, -, -, rfl⟩ := outline_eq_ok_iff.mp ho
  obtain ⟨-, rfl⟩ := Outline.toUnit_eq_ok_iff.mp hu
  exact fun d hd => forall_made_of_definitions hds _ (Outline.mem_number hd).1

end CodeOutline.Python
