/-
CodeOutline/Proofs/Python/Arrangement.lean

Which definitions a module has, and in which order.

`classesWithin` lists the classes of a tree by recursion through all its nodes, each with the
innermost class around it; it meets them in preorder (`map_snd_classesWithin`).  The outline looks
for classes in fewer places, which makes no difference where classes are written as statements
(`classesAt_eq`).  `bindings` lists what a single statement binds to a name, and `memberNodes` what
the body of a class does.

The definitions of a module come in groups, one for each of its `declarations`: a class with its
members, or a single function or variable of the module itself (`arrangement_of_convert`).
-/
import CodeOutline.Proofs.Metadata.Lookup
import CodeOutline.Proofs.Python.Places

namespace CodeOutline.Python

open Outcome

/-! ### Classes of a tree -/

mutual

/-- The classes of a tree in preorder, each with the innermost class around it. -/
def classesWithin (outer : Option Node) : Node → List (Option Node × Node)
  | ⟨role, kind, range, attributes, cs⟩ =>
    let n : Node := ⟨role, kind, range, attributes, cs⟩
    if n.isClass then (outer, n) :: classesAmong (some n) cs else classesAmong outer cs

/-- The classes of some trees. -/
def classesAmong (outer : Option Node) : List Node → List (Option Node × Node)
  | [] => []
  | n :: ns => classesWithin outer n ++ classesAmong outer ns

end

theorem classesWithin_of_not_isClass {n : Node} (h : n.isClass = false) (outer : Option Node) :
    classesWithin outer n = classesAmong outer n.children := by
  obtain ⟨role, kind, range, attributes, cs⟩ := n
  rw [classesWithin, if_neg (by simp [h])]

theorem classesAmong_eq (outer : Option Node) (ns : List Node) :
    classesAmong outer ns = ns.flatMap (classesWithin outer) := by
  induction ns with
  | nil => rfl
  | cons n ns ih => rw [classesAmong, ih, List.flatMap_cons]

mutual

/-- The classes of a tree are listed in preorder, each once. -/
theorem map_snd_classesWithin (outer : Option Node) (n : Node) :
    (classesWithin outer n).map Prod.snd = n.preorder.filter Node.isClass := by
  match n with
  | ⟨role, kind, range, attributes, cs⟩ =>
    rw [classesWithin, Node.preorder, List.filter_cons]
    -- below a class the innermost class around changes, but not what is listed
    split
    · rw [List.map_cons, map_snd_classesAmong]
    · rw [map_snd_classesAmong]

theorem map_snd_classesAmong (outer : Option Node) (ns : List Node) :
    (classesAmong outer ns).map Prod.snd = (Node.preorders ns).filter Node.isClass := by
  match ns with
  | [] => rfl
  | n :: ns =>
    rw [classesAmong, Node.preorders, List.map_append, List.filter_append,
      map_snd_classesWithin, map_snd_classesAmong]

end

/-- A tree without classes lists none. -/
theorem classesWithin_eq_nil {n : Node} (h : ∀ c ∈ n.preorder, c.isClass = false)
    (outer : Option Node) : classesWithin outer n = [] := by
  rw [← List.map_eq_nil_iff (f := Prod.snd), map_snd_classesWithin, List.filter_eq_nil_iff]
  intro c hc
  simp [h c hc]

mutual

/-- The innermost class around a listed one is listed too, unless it lies around the whole tree. -/
theorem outer_of_mem_classesWithin {outer : Option Node} {n o c : Node}
    (h : (some o, c) ∈ classesWithin outer n) :
    outer = some o ∨ ∃ o', (o', o) ∈ classesWithin outer n := by
  match n with
  | ⟨role, kind, range, attributes, cs⟩ =>
    rw [classesWithin] at h ⊢
    split at h
    · next hc =>
      rw [if_pos hc]
      rcases List.mem_cons.mp h with h | h
      · exact .inl (Prod.mk.inj h).1.symm
      · rcases outer_of_mem_classesAmong h with h | ⟨o', ho'⟩
        · -- the class around is the root of the tree itself
          rw [← Option.some.inj h]
          exact .inr ⟨outer, List.mem_cons_self⟩
        · exact .inr ⟨o', List.mem_cons_of_mem _ ho'⟩
    · next hc =>
      rw [if_neg hc]
      exact outer_of_mem_classesAmong h

theorem outer_of_mem_classesAmong {outer : Option Node} {ns : List Node} {o c : Node}
    (h : (some o, c) ∈ classesAmong outer ns) :
    outer = some o ∨ ∃ o', (o', o) ∈ classesAmong outer ns := by
  match ns with
  | [] => cases h
  | n :: ns =>
    rw [classesAmong, List.mem_append] at h
    rcases h with h | h
    · refine (outer_of_mem_classesWithin h).imp_right ?_
      rintro ⟨o', ho'⟩
      exact ⟨o', List.mem_append_left _ ho'⟩
    · refine (outer_of_mem_classesAmong h).imp_right ?_
      rintro ⟨o', ho'⟩
      exact ⟨o', List.mem_append_right _ ho'⟩

end

/-! ### Classes as statements -/

/-- The kinds of nodes that hold statements, with the roles that these have.  The branches of a
statement stand between it and theirs. -/
def statementPlaces : List (String × String) :=
  [("Module", "body"), ("FunctionDef", "body"), ("AsyncFunctionDef", "body"), ("ClassDef", "body"),
    ("If", "body"), ("If", "orelse"), ("For", "body"), ("For", "orelse"), ("AsyncFor", "body"),
    ("AsyncFor", "orelse"), ("While", "body"), ("While", "orelse"), ("With", "body"),
    ("AsyncWith", "body"), ("Try", "body"), ("Try", "handlers"), ("Try", "orelse"),
    ("Try", "finalbody"), ("TryStar", "body"), ("TryStar", "handlers"), ("TryStar", "orelse"),
    ("TryStar", "finalbody"), ("ExceptHandler", "body"), ("Match", "cases"),
    ("match_case", "body")]

/-- All classes of a tree are written as statements: there are none elsewhere in a node. -/
def ClassesAreStatements (root : Node) : Prop :=
  ∀ n ∈ root.preorder, ∀ c ∈ n.children, (n.kind, c.role) ∉ statementPlaces →
    ∀ d ∈ c.preorder, d.isClass = false

instance (root : Node) : Decidable (ClassesAreStatements root) :=
  inferInstanceAs (Decidable (∀ n ∈ root.preorder, ∀ c ∈ n.children,
    (n.kind, c.role) ∉ statementPlaces → ∀ d ∈ c.preorder, d.isClass = false))

theorem ClassesAreStatements.child {n c : Node} (h : ClassesAreStatements n)
    (hc : c ∈ n.children) : ClassesAreStatements c :=
  fun m hm => h m (Node.mem_preorder_of_mem_children hc hm)

/-- Outside the places for statements a node has no classes. -/
theorem ClassesAreStatements.classesWithin_child {n c : Node} (h : ClassesAreStatements n)
    (hc : c ∈ n.children) (hplace : (n.kind, c.role) ∉ statementPlaces) (outer : Option Node) :
    classesWithin outer c = [] :=
  classesWithin_eq_nil (h n (Node.mem_preorder_self n) c hc hplace) outer

/-- A node that holds no statements has no classes below it. -/
theorem ClassesAreStatements.classesWithin_eq_nil {n : Node} (h : ClassesAreStatements n)
    (hkind : ∀ role, (n.kind, role) ∉ statementPlaces) (outer : Option Node) :
    classesWithin outer n = [] := by
  have hclass : n.isClass = false := by
    by_contra hclass
    have : n.kind = "ClassDef" := by simpa [Node.isClass] using hclass
    exact hkind "body" (by rw [this]; decide)
  rw [classesWithin_of_not_isClass hclass, classesAmong_eq, List.flatMap_eq_nil_iff]
  exact fun c hc => h.classesWithin_child hc (hkind c.role) outer

/-- An assignment holds no statements. -/
theorem ClassesAreStatements.classesWithin_of_isAssignment {n : Node} (h : ClassesAreStatements n)
    (ha : n.isAssignment = true) (outer : Option Node) : classesWithin outer n = [] := by
  refine h.classesWithin_eq_nil (fun role => ?_) outer
  simp only [Node.isAssignment, Bool.or_eq_true, beq_iff_eq] at ha
  rcases ha with ha | ha <;> simp [ha, statementPlaces]

/-- A class among others as the outline keeps it: with the name of the class around it. -/
def locate (c : Option Node × Node) : LocatedClass := ⟨c.1.bind (·.text? "name"), c.2⟩

mutual

/-- Where classes are statements, the outline finds all of them. -/
theorem classesAt_eq {n : Node} (h : ClassesAreStatements n) (outer : Option Node) :
    classesAt (outer.bind (·.text? "name")) n = (classesWithin outer n).map locate := by
  match n with
  | ⟨role, kind, range, attributes, cs⟩ =>
    rw [classesAt, classesWithin]
    by_cases hk : kind = "ClassDef"
    · -- a class, of which the body alone holds statements
      subst hk
      simp only [if_true, Node.isClass, beq_self_eq_true, List.map_cons]
      refine congrArg (List.cons _) ?_
      refine @classesIn_eq _ (some _) _ (fun c hc => h.child hc) fun c hc hrole => ?_
      refine h.classesWithin_child hc ?_ _
      simpa [statementPlaces] using hrole
    · simp only [hk, if_false, Node.isClass, beq_eq_false_iff_ne.mpr hk, Bool.false_eq_true]
      exact classesIn_eq (fun c hc => h.child hc) fun c hc hrole => by simp at hrole

theorem classesIn_eq {isOpen : String → Bool} {outer : Option Node} {ns : List Node}
    (h : ∀ n ∈ ns, ClassesAreStatements n)
    (hclosed : ∀ n ∈ ns, isOpen n.role = false → classesWithin outer n = []) :
    classesIn isOpen (outer.bind (·.text? "name")) ns = (classesAmong outer ns).map locate := by
  match ns with
  | [] => rfl
  | n :: ns =>
    have hn : n ∈ n :: ns := List.mem_cons_self
    rw [classesIn, classesAmong, List.map_append,
      classesIn_eq (fun m hm => h m (List.mem_cons_of_mem _ hm))
        (fun m hm => hclosed m (List.mem_cons_of_mem _ hm))]
    refine congrArg (· ++ _) ?_
    split
    · exact classesAt_eq (h n hn) outer
    · next hopen => rw [hclosed n hn (by simpa using hopen), List.map_nil]

end

/-! ### What statements bind -/

/-- What a statement binds to names: a function, or the names that are targets of an assignment or
elements of one.  Each comes with the node that has the name. -/
def bindings (s : Node) : List (Node × Node) :=
  if s.isFunction then [(s, s)]
  else if s.isAssignment then (assignedNames s).map (fun target => (s, target))
  else []

/-- The members of a class that is no interface and no enumeration: what its statements bind, less
the functions that set or delete a property. -/
def memberNodes (n : Node) : List (Node × Node) :=
  if classKind n = .type then
    n.body.flatMap (fun s => if s.isFunction && isAccessor s then [] else bindings s)
  else []

/-- The name of what is bound. -/
def boundName (b : Node × Node) : Option String :=
  if b.1.isFunction then b.2.text? "name" else b.2.text? "id"

/-- The kind of definition that a binding gives, which in a class may be a property. -/
def bindingKind (inClass : Bool) (b : Node × Node) : DefinitionKind :=
  if b.1.isFunction then (if inClass && isProperty b.1 then .property else .function)
  else .variable

/-- Metadata tells the innermost class around a definition by its name, if there is one. -/
def DeclaredIn (outer : Option Node) (m : Metadata) : Prop :=
  Option.Rel (fun o v => ∃ name, o.text? "name" = some name ∧ v = Value.text name) outer
    (m.get? "declaringType")

/-- A definition is that of a binding, in the body of a class or of the module. -/
structure IsBinding (t : LineIndex) (outer : Option Node) (b : Node × Node)
    (d : Definition.Content) : Prop where
  name : ∃ name, boundName b = some name ∧ d.name = .text name
  kind : d.kind = bindingKind outer.isSome b
  span : spanOf t b.1 = .ok (d.scope.start, d.scope.stop)
  children : d.scope.children = []
  position : d.position = d.scope.start
  declaring : DeclaredIn outer d.metadata

/-- The name under which a class owns others. -/
def IsOwner (outer : Option Node) (owner : Option String) : Prop :=
  Option.Rel (fun o name => o.text? "name" = some name) outer owner

variable {t : LineIndex} {outer : Option Node} {owner : Option String}

theorem IsOwner.isSome (h : IsOwner outer owner) : owner.isSome = outer.isSome := by
  cases h <;> rfl

/-- The class around is told by the facts about a definition, if none of the others has its key. -/
theorem IsOwner.declaredIn {facts : List (Scalar × Value)} (h : IsOwner outer owner)
    (hfacts : "declaringType" ∉ Metadata.textKeys facts) :
    DeclaredIn outer (Metadata.ofEntries (declaringType owner ++ facts)) := by
  unfold DeclaredIn
  cases h with
  | none =>
    rw [declaringType, List.nil_append, Metadata.get?_ofEntries_of_notMem hfacts]
    exact .none
  | @some o name ho =>
    have hget := Metadata.get?_ofEntries_cons_of_notMem (v := .text name)
      (.text "declaringType") hfacts
    rw [show (Scalar.text "declaringType").render = "declaringType" from rfl] at hget
    rw [declaringType, List.singleton_append, hget]
    exact .some ⟨name, ho, rfl⟩

/-- A definition built from the frame of a statement and a bound name is that of the binding. -/
theorem isBinding_of_frame {level : ScopeLevel} {b : Node × Node} {f : Frame} {name : String}
    {facts : List (Scalar × Value)} {d : Definition.Content} (howner : IsOwner outer owner)
    (hname : boundName b = some name) (hf : frame t level b.1 [] = .ok f)
    (hfacts : "declaringType" ∉ Metadata.textKeys facts)
    (h : f.define name (bindingKind outer.isSome b) owner [] facts = .ok d) :
    IsBinding t outer b d := by
  obtain ⟨hspan, hchildren⟩ := scope_of_frame hf
  obtain ⟨-, rfl⟩ := define_eq_ok_iff.mp h
  exact {
    name := ⟨name, hname, rfl⟩
    kind := rfl
    span := hspan
    children := hchildren
    position := rfl
    declaring := howner.declaredIn hfacts }

/-- A function that is not taken for a property is a function. -/
theorem isBinding_of_function {s : Node} {d : Definition.Content} (howner : IsOwner outer owner)
    (hs : s.isFunction = true) (hp : (outer.isSome && isProperty s) = false)
    (h : function t owner s = .ok d) : IsBinding t outer (s, s) d := by
  have hkind : DefinitionKind.function = bindingKind outer.isSome (s, s) := by
    simp [bindingKind, hs, hp]
  simp only [function, bind_eq_ok_iff, nameIn_eq_ok_iff] at h
  obtain ⟨name, hname, f, hf, parameters, -, h⟩ := h
  have hbound : boundName (s, s) = some name := by rw [boundName, if_pos hs]; exact hname
  rw [hkind] at h
  -- a constructor has no type of its result
  split at h
  · simp only [pure_eq, ok_bind] at h
    exact isBinding_of_frame howner hbound hf (by simp [Metadata.textKeys, Scalar.render]) h
  · simp only [bind_eq_ok_iff, pure_eq, Except.ok.injEq] at h
    obtain ⟨_, -, _, rfl, h⟩ := h
    exact isBinding_of_frame howner hbound hf (by simp [Metadata.textKeys, Scalar.render]) h

theorem isBinding_of_property {s : Node} {d : Definition.Content} (howner : IsOwner outer owner)
    (hs : s.isFunction = true) (hp : (outer.isSome && isProperty s) = true)
    (h : property t owner s = .ok d) : IsBinding t outer (s, s) d := by
  have hkind : DefinitionKind.property = bindingKind outer.isSome (s, s) := by
    simp only [bindingKind, hs, hp, if_true]
  simp only [property, bind_eq_ok_iff, nameIn_eq_ok_iff] at h
  obtain ⟨name, hname, f, hf, type, -, h⟩ := h
  rw [hkind] at h
  exact isBinding_of_frame howner (by rw [boundName, if_pos hs]; exact hname) hf
    (by simp [Metadata.textKeys, Scalar.render]) h

/-- The variables that an assignment defines are those of its bindings. -/
theorem forall₂_isBinding_of_assignedVariables {s : Node} {ds : List Definition.Content}
    (howner : IsOwner outer owner) (hs : s.isFunction = false) (ha : s.isAssignment = true)
    (h : assignedVariables t owner s = .ok ds) :
    List.Forall₂ (IsBinding t outer) (bindings s) ds := by
  simp only [assignedVariables, bind_eq_ok_iff] at h
  obtain ⟨type, -, h⟩ := h
  rw [bindings, if_neg (by simp [hs]), if_pos ha, List.forall₂_map_left_iff]
  refine (mapM_eq_ok_iff.mp h).imp fun target d hd => ?_
  simp only [bind_eq_ok_iff, nameIn_eq_ok_iff] at hd
  obtain ⟨name, hname, f, hf, hd⟩ := hd
  have hkind : DefinitionKind.variable = bindingKind outer.isSome (s, target) := by
    simp [bindingKind, hs]
  rw [hkind] at hd
  refine isBinding_of_frame howner (by rw [boundName, if_neg (by simp [hs])]; exact hname) hf ?_ hd
  split <;> simp [Metadata.textKeys, Scalar.render]

/-! ### Classes with their members -/

/-- The definitions that a statement in the body of a class gives are those of what it binds. -/
theorem forall₂_isBinding_of_memberDefinitions {n s : Node} {ds : List Definition.Content}
    (howner : IsOwner (some n) owner) (h : memberDefinitions t owner s = .ok ds) :
    List.Forall₂ (IsBinding t (some n))
      (if s.isFunction && isAccessor s then [] else bindings s) ds := by
  unfold memberDefinitions at h
  split at h
  · next hs =>
    split at h
    · next ha =>
      -- a function that sets or deletes a property
      cases h
      simp [hs, ha]
    · next ha =>
      rw [if_neg (by simp [ha]), bindings, if_pos hs]
      split at h
      · next hp =>
        obtain ⟨d, hd, rfl⟩ := map_eq_ok_iff.mp h
        exact .cons (isBinding_of_property howner hs (by simpa using hp) hd) .nil
      · next hp =>
        obtain ⟨d, hd, rfl⟩ := map_eq_ok_iff.mp h
        exact .cons (isBinding_of_function howner hs (by simpa using hp) hd) .nil
  · next hs =>
    have hs : s.isFunction = false := by simpa using hs
    rw [if_neg (by simp [hs])]
    split at h
    · next ha => exact forall₂_isBinding_of_assignedVariables howner hs ha h
    · next ha =>
      cases h
      simp [bindings, hs, ha]

/-- The definitions of the members of a class are those of its member nodes, in the same order. -/
theorem forall₂_isBinding_of_members {n : Node} {name : String} {ds : List Definition.Content}
    (hname : n.text? "name" = some name) (h : members t n = .ok ds) :
    List.Forall₂ (IsBinding t (some n)) (memberNodes n) ds := by
  have howner : IsOwner (some n) (n.text? "name") := by
    rw [hname]
    exact .some hname
  unfold members at h
  unfold memberNodes
  split at h
  · next hk =>
    obtain ⟨dss, hdss, rfl⟩ := map_eq_ok_iff.mp h
    rw [if_pos hk, List.flatMap_def]
    apply List.rel_flatten
    rw [List.forall₂_map_left_iff]
    exact (mapM_eq_ok_iff.mp hdss).imp fun _ _ hd =>
      forall₂_isBinding_of_memberDefinitions howner hd
  · next hk =>
    cases h
    rw [if_neg hk]
    exact .nil

/-- A definition is that of a class, and others are those of its members. -/
structure IsClassOutline (t : LineIndex) (outer : Option Node) (n : Node) (d : Definition.Content)
    (ms : List Definition.Content) : Prop where
  name : ∃ name, n.text? "name" = some name ∧ d.name = .text name
  kind : d.kind = classKind n
  members : List.Forall₂ (IsBinding t (some n)) (memberNodes n) ms
  span : spanOf t n = .ok (d.scope.start, d.scope.stop)
  children : d.scope.children = ms.map (·.scope)
  position : d.position = d.scope.start
  declaring : DeclaredIn outer d.metadata

/-- What is particular to a kind of class does not tell the class around it. -/
theorem declaringType_notMem_of_classFacts {n : Node} {facts : List (Scalar × Value)}
    (h : classFacts n = .ok facts) : "declaringType" ∉ Metadata.textKeys facts := by
  unfold classFacts at h
  split at h
  · -- an interface
    cases h
    simp [Metadata.textKeys, Scalar.render]
  · -- an enumeration
    simp only [bind_eq_ok_iff, pure_eq, Except.ok.injEq] at h
    obtain ⟨_, -, rfl⟩ := h
    simp [Metadata.textKeys, Scalar.render]
  · -- any other class
    simp only [bind_eq_ok_iff, pure_eq, Except.ok.injEq] at h
    obtain ⟨_, -, rfl⟩ := h
    simp [Metadata.textKeys, Scalar.render]

/-- The name of a class whose definitions are found is there. -/
theorem exists_name_of_classDefinitions {c : LocatedClass} {ds : List Definition.Content}
    (h : classDefinitions t c = .ok ds) : ∃ name, c.node.text? "name" = some name := by
  obtain ⟨name, _, _, _, _, _, hname, -⟩ := exists_of_classDefinitions h
  exact ⟨name, hname⟩

theorem isClassOutline_of_classDefinitions {c : LocatedClass} {ds : List Definition.Content}
    (howner : IsOwner outer c.owner) (h : classDefinitions t c = .ok ds) :
    ∃ d ms, ds = d :: ms ∧ IsClassOutline t outer c.node d ms := by
  obtain ⟨name, ms, f, bases, facts, d, hname, hms, hf, -, hfacts, hd, rfl⟩ :=
    exists_of_classDefinitions h
  obtain ⟨hspan, hchildren⟩ := scope_of_frame hf
  obtain ⟨-, rfl⟩ := define_eq_ok_iff.mp hd
  refine ⟨_, ms, rfl, ?_⟩
  exact {
    name := ⟨name, hname, rfl⟩
    kind := rfl
    members := forall₂_isBinding_of_members hname hms
    span := hspan
    children := hchildren
    position := rfl
    declaring := howner.declaredIn (declaringType_notMem_of_classFacts hfacts) }

/-! ### Declarations of a module -/

/-- Something that a module declares by itself. -/
inductive Declaration where
  /-- A class at any depth, with the innermost class around it. -/
  | ofClass (outer : Option Node) (n : Node)
  /-- A function or a variable of the module. -/
  | ofBinding (b : Node × Node)

namespace Declaration

/-- The class that is declared, with the innermost one around it. -/
def class? : Declaration → Option (Option Node × Node)
  | ofClass outer n => some (outer, n)
  | ofBinding _ => none

/-- The function or variable that is declared. -/
def binding? : Declaration → Option (Node × Node)
  | ofClass _ _ => none
  | ofBinding b => some b

/-- A definition and those that come with it are the ones of a declaration: of a class and its
members, or of a function or variable alone. -/
def IsDefinedBy (t : LineIndex) (g : Definition.Content × List Definition.Content) :
    Declaration → Prop
  | ofClass outer n => IsClassOutline t outer n g.1 g.2
  | ofBinding b => IsBinding t none b g.1 ∧ g.2 = []

end Declaration

/-- What a statement of a module declares: what it binds, and the classes in it. -/
def declarationsAt (s : Node) : List Declaration :=
  (bindings s).map .ofBinding ++ (classesWithin none s).map (fun c => .ofClass c.1 c.2)

/-- What a module declares, in source order. -/
def declarations (root : Node) : List Declaration := root.body.flatMap declarationsAt

/-- The functions and variables that a module declares are what its statements bind. -/
theorem filterMap_binding?_declarations (root : Node) :
    (declarations root).filterMap Declaration.binding? = root.body.flatMap bindings := by
  rw [declarations, List.filterMap_flatMap]
  refine congrArg (List.flatMap · _) (funext fun s => ?_)
  rw [declarationsAt, List.filterMap_append, List.filterMap_map, List.filterMap_map]
  simp [Function.comp_def, Declaration.binding?]

theorem filterMap_class?_declarationsAt (s : Node) :
    (declarationsAt s).filterMap Declaration.class? = classesWithin none s := by
  rw [declarationsAt, List.filterMap_append, List.filterMap_map, List.filterMap_map]
  simp [Function.comp_def, Declaration.class?]

/-- What is put together from some items of a list alone, if the others add nothing. -/
theorem flatMap_filter_eq {α β : Type} {p : α → Bool} {f : α → List β} {xs : List α}
    (h : ∀ x ∈ xs, p x = false → f x = []) : (xs.filter p).flatMap f = xs.flatMap f := by
  induction xs with
  | nil => rfl
  | cons x xs ih =>
    have ih := ih fun y hy => h y (List.mem_cons_of_mem _ hy)
    by_cases hx : p x = true
    · rw [List.filter_cons_of_pos hx, List.flatMap_cons, List.flatMap_cons, ih]
    · rw [List.filter_cons_of_neg hx, List.flatMap_cons, ih,
        h x List.mem_cons_self (by simpa using hx), List.nil_append]

/-- The classes that a module declares are those of its tree. -/
theorem filterMap_class?_declarations {root : Node} (hkind : root.kind = "Module")
    (h : ClassesAreStatements root) (hgaps : root.places "body" = root.body) :
    (declarations root).filterMap Declaration.class? = classesWithin none root := by
  have hroot : root.isClass = false := by simp [Node.isClass, hkind]
  rw [declarations, List.filterMap_flatMap, ← hgaps]
  simp only [filterMap_class?_declarationsAt]
  rw [classesWithin_of_not_isClass hroot, classesAmong_eq, Node.places]
  -- only in the body of a module are there classes
  refine flatMap_filter_eq fun c hc hrole => h.classesWithin_child hc ?_ none
  simpa [hkind, statementPlaces] using hrole

/-! ### Groups of definitions -/

/-- A definition with those that come right after it as its members. -/
abbrev Group := Definition.Content × List Definition.Content

/-- The definitions of some groups in their order. -/
def Group.definitions (groups : List Group) : List Definition.Content :=
  groups.flatMap (fun g => g.1 :: g.2)

/-- The definitions of some classes come in groups, each of a class and its members. -/
theorem exists_groups_of_classes {cs : List (Option Node × Node)}
    {ds : List Definition.Content} (howner : ∀ c ∈ cs, IsOwner c.1 (locate c).owner)
    (h : allClassDefinitions t (cs.map locate) = .ok ds) :
    ∃ groups : List Group, ds = Group.definitions groups ∧
      List.Forall₂ (fun c g => IsClassOutline t c.1 c.2 g.1 g.2) cs groups := by
  obtain ⟨dss, hdss, rfl⟩ := map_eq_ok_iff.mp h
  rw [mapM_eq_ok_iff, List.forall₂_map_left_iff] at hdss
  clear h
  induction hdss with
  | nil => exact ⟨[], rfl, .nil⟩
  | @cons c ds cs dss hc _ ih =>
    obtain ⟨groups, hflat, hgroups⟩ := ih fun c' hc' => howner c' (List.mem_cons_of_mem _ hc')
    obtain ⟨d, ms, rfl, ho⟩ := isClassOutline_of_classDefinitions (howner c List.mem_cons_self) hc
    refine ⟨(d, ms) :: groups, ?_, .cons ho hgroups⟩
    rw [List.flatten_cons, hflat, Group.definitions, Group.definitions, List.flatMap_cons]

/-- Where the definitions of all classes of a tree are found, each class has a name, and so have the
classes around it. -/
theorem isOwner_of_allClassDefinitions {s : Node} {ds : List Definition.Content}
    (h : allClassDefinitions t ((classesWithin none s).map locate) = .ok ds) :
    ∀ c ∈ classesWithin none s, IsOwner c.1 (locate c).owner := by
  obtain ⟨dss, hdss, rfl⟩ := map_eq_ok_iff.mp h
  have hnames : ∀ c ∈ classesWithin none s, ∃ name, c.2.text? "name" = some name := by
    rw [mapM_eq_ok_iff, List.forall₂_map_left_iff] at hdss
    intro c hc
    obtain ⟨i, hi, rfl⟩ := List.mem_iff_getElem.mp hc
    have hlength := hdss.length_eq
    exact exists_name_of_classDefinitions (hdss.get hi (hlength ▸ hi))
  rintro ⟨outer, c⟩ hc
  cases outer with
  | none => exact .none
  | some o =>
    -- the class around is listed as well
    rcases outer_of_mem_classesWithin hc with h | ⟨o', ho'⟩
    · cases h
    · obtain ⟨name, hname⟩ := hnames _ ho'
      simp only [locate, Option.bind_some, hname]
      exact .some hname

/-- The definitions of the classes in a statement come in groups. -/
theorem exists_groups_of_classesAt {s : Node} {ds : List Definition.Content}
    (hs : ClassesAreStatements s) (h : allClassDefinitions t (classesAt none s) = .ok ds) :
    ∃ groups : List Group, ds = Group.definitions groups ∧
      List.Forall₂ (fun decl g => Declaration.IsDefinedBy t g decl)
        ((classesWithin none s).map (fun c => .ofClass c.1 c.2)) groups := by
  rw [show classesAt none s = (classesWithin none s).map locate from classesAt_eq hs none] at h
  obtain ⟨groups, hflat, hgroups⟩ :=
    exists_groups_of_classes (isOwner_of_allClassDefinitions h) h
  exact ⟨groups, hflat, List.forall₂_map_left_iff.mpr hgroups⟩

/-- The definitions of bindings are groups of their own. -/
theorem forall₂_isDefinedBy_of_bindings {bs : List (Node × Node)} {ds : List Definition.Content}
    (h : List.Forall₂ (IsBinding t none) bs ds) :
    List.Forall₂ (fun decl g => Declaration.IsDefinedBy t g decl)
      (bs.map Declaration.ofBinding) (ds.map (fun d => (d, []))) := by
  rw [List.forall₂_map_left_iff, List.forall₂_map_right_iff]
  exact h.imp fun _ _ hd => ⟨hd, rfl⟩

/-- The definitions that a statement of a module gives are those of what it declares. -/
theorem exists_groups_of_statementDefinitions {s : Node} {ds : List Definition.Content}
    (hs : ClassesAreStatements s) (h : statementDefinitions t s = .ok ds) :
    ∃ groups : List Group, ds = Group.definitions groups ∧
      List.Forall₂ (fun decl g => Declaration.IsDefinedBy t g decl) (declarationsAt s) groups := by
  rcases statementDefinitions_cases h with ⟨hf, f, nested, hfunction, hnested, rfl⟩ |
    ⟨hf, ha, h⟩ | ⟨hf, ha, h⟩
  · -- a function, and the classes in it
    obtain ⟨groups, rfl, hgroups⟩ := exists_groups_of_classesAt hs hnested
    refine ⟨(f, []) :: groups, rfl, ?_⟩
    rw [declarationsAt, bindings, if_pos hf]
    exact .cons ⟨isBinding_of_function .none hf rfl hfunction, rfl⟩ hgroups
  · refine ⟨ds.map (fun d => (d, [])), ?_, ?_⟩
    · rw [Group.definitions, List.flatMap_map]
      exact (List.flatMap_singleton' ds).symm
    · rw [declarationsAt, hs.classesWithin_of_isAssignment ha none, List.map_nil, List.append_nil]
      exact forall₂_isDefinedBy_of_bindings
        (forall₂_isBinding_of_assignedVariables .none hf ha h)
  · rw [declarationsAt, bindings, if_neg (by simp [hf]), if_neg (by simp [ha]), List.map_nil,
      List.nil_append]
    exact exists_groups_of_classesAt hs h

theorem exists_groups_of_statements {ss : List Node} {dss : List (List Definition.Content)}
    (hs : ∀ s ∈ ss, ClassesAreStatements s)
    (h : List.Forall₂ (fun s ds => statementDefinitions t s = .ok ds) ss dss) :
    ∃ groups : List Group, dss.flatten = Group.definitions groups ∧
      List.Forall₂ (fun decl g => Declaration.IsDefinedBy t g decl)
        (ss.flatMap declarationsAt) groups := by
  induction h with
  | nil => exact ⟨[], rfl, .nil⟩
  | @cons s ds ss dss hds _ ih =>
    obtain ⟨first, rfl, hfirst⟩ :=
      exists_groups_of_statementDefinitions (hs s List.mem_cons_self) hds
    obtain ⟨rest, hflat, hrest⟩ := ih fun s' hs' => hs s' (List.mem_cons_of_mem _ hs')
    refine ⟨first ++ rest, ?_, ?_⟩
    · rw [List.flatten_cons, hflat, Group.definitions, Group.definitions, Group.definitions,
        List.flatMap_append]
    · rw [List.flatMap_cons]
      exact List.rel_append hfirst hrest

/-! ### Kinds of definitions -/

/-- Whether definitions of a kind are those of classes. -/
def isClassKind : DefinitionKind → Bool
  | .type | .interface | .enum => true
  | _ => false

theorem isClassKind_classKind (n : Node) : isClassKind (classKind n) = true := by
  unfold classKind
  split
  · rfl
  · split <;> rfl

theorem isClassKind_bindingKind (inClass : Bool) (b : Node × Node) :
    isClassKind (bindingKind inClass b) = false := by
  unfold bindingKind
  split
  · split <;> rfl
  · rfl

theorem filter_isClassKind_of_bindings {bs : List (Node × Node)} {ds : List Definition.Content}
    (h : List.Forall₂ (IsBinding t outer) bs ds) :
    ds.filter (fun d => isClassKind d.kind) = [] := by
  rw [List.filter_eq_nil_iff]
  intro d hd
  obtain ⟨b, -, hb⟩ := exists_of_forall₂_of_mem h hd
  rw [hb.kind, isClassKind_bindingKind]
  exact Bool.false_ne_true

/-- Among the definitions of groups, those of a kind for classes are those of the classes. -/
theorem forall₂_isClassOutline_filter {decls : List Declaration} {groups : List Group}
    (h : List.Forall₂ (fun decl g => Declaration.IsDefinedBy t g decl) decls groups) :
    List.Forall₂ (fun c d => ∃ ms, IsClassOutline t c.1 c.2 d ms)
      (decls.filterMap Declaration.class?)
      ((Group.definitions groups).filter (fun d => isClassKind d.kind)) := by
  induction h with
  | nil => exact .nil
  | @cons decl g decls groups hg _ ih =>
    rw [Group.definitions, List.flatMap_cons, List.filter_append, List.filter_cons]
    cases decl with
    | ofClass o n =>
      -- the class itself is kept, its members are not
      have hg : IsClassOutline t o n g.1 g.2 := hg
      rw [if_pos (by rw [hg.kind, isClassKind_classKind]),
        filter_isClassKind_of_bindings hg.members]
      exact .cons ⟨g.2, hg⟩ ih
    | ofBinding b =>
      obtain ⟨hb, hnone⟩ : IsBinding t none b g.1 ∧ g.2 = [] := hg
      rw [if_neg (by rw [hb.kind, isClassKind_bindingKind]; exact Bool.false_ne_true), hnone]
      exact ih

/-! ### Modules -/

/-- No place in the body of a module is empty if all its statements have definitions. -/
theorem places_eq_body_of_mapM {root : Node} {dss : List (List Definition.Content)}
    (h : (root.places "body").mapM (statementDefinitions t) = .ok dss) :
    root.places "body" = root.body := by
  have hgaps : ∀ s ∈ root.places "body", s.isGap = false := by
    intro s hs
    by_contra hgap
    obtain ⟨i, hi, rfl⟩ := List.mem_iff_getElem.mp hs
    have h := mapM_eq_ok_iff.mp h
    have hi' := h.get hi (h.length_eq ▸ hi)
    simp only [List.get_eq_getElem, statementDefinitions] at hi'
    rw [if_pos (by simpa using hgap)] at hi'
    cases hi'
  rw [Node.places, Node.body, Node.inRole]
  refine List.filter_congr fun c hc => ?_
  by_cases hrole : c.role = "body"
  · have : c ∈ root.places "body" := List.mem_filter.mpr ⟨hc, by simp [hrole]⟩
    simp [hrole, hgaps c this]
  · simp [hrole]

/-- Where classes are statements, the definitions of a module are those of its declarations in
source order: every class of its tree with its members right after it, and the functions and
variables of the module itself. -/
theorem arrangement_of_convert {ids : IdSource} {workingDirectory : List String}
    {sourceRoot : Option Path} {p : Parsed Node} {root : Node} {u : CodeUnit}
    (hroot : p.tree? = some root) (hkind : root.kind = "Module")
    (hclasses : ClassesAreStatements root)
    (h : convert ids workingDirectory sourceRoot (some p) = .ok u) :
    (∃ groups : List Group,
      u.definitions.map Definition.toContent = Group.definitions groups ∧
      List.Forall₂ (fun decl g => Declaration.IsDefinedBy (.ofSource p.source) g decl)
        (declarations root) groups) ∧
    List.Forall₂ (fun c d => ∃ ms, IsClassOutline (.ofSource p.source) c.1 c.2 d ms)
      (classesWithin none root)
      ((u.definitions.map Definition.toContent).filter (fun d => isClassKind d.kind)) ∧
    (classesWithin none root).map Prod.snd = root.preorder.filter Node.isClass ∧
    (declarations root).filterMap Declaration.class? = classesWithin none root ∧
    (declarations root).filterMap Declaration.binding? = root.body.flatMap bindings := by
  obtain ⟨root', parts, o, hroot', -, ho, hu⟩ := convert_eq_ok_iff.mp h
  rw [hroot, Option.some.injEq] at hroot'
  subst hroot'
  obtain ⟨-, rfl⟩ := Outline.toUnit_eq_ok_iff.mp hu
  simp only [outline, definitions, bind_eq_ok_iff, pure_eq, Except.ok.injEq, map_eq_ok_iff] at ho
  obtain ⟨-, ⟨dss, hdss, rfl⟩, imports, -, documentation, -, rfl⟩ := ho
  have hgaps := places_eq_body_of_mapM hdss
  rw [hgaps, mapM_eq_ok_iff] at hdss
  obtain ⟨groups, hflat, hgroups⟩ := exists_groups_of_statements
    (fun s hs => hclasses.child (Node.mem_children_of_mem_inRole hs)) hdss
  have hall := filterMap_class?_declarations hkind hclasses hgaps
  have hcontents : (Outline.number ids 1 dss.flatten).map Definition.toContent
      = Group.definitions groups := (Outline.map_toContent_number ids 1 _).trans hflat
  refine ⟨⟨groups, hcontents, hgroups⟩, ?_, map_snd_classesWithin none root, hall,
    filterMap_binding?_declarations root⟩
  rw [← hall]
  have hkinds := forall₂_isClassOutline_filter hgroups
  rwa [← hcontents] at hkinds

/-! ### Classes in functions of functions -/

/-- The tree of a function with a class in it, which has two variables, a setter and a method with
an enumeration in it; and of a variable after it. -/
def layeredTree : Node :=
  ⟨"", "Module", none, [], [
    ⟨"body", "FunctionDef", some ⟨1, 0, some 7, some 23⟩, [("name", .text "f")], [
      ⟨"args", "arguments", none, [], []⟩,
      ⟨"body", "ClassDef", some ⟨2, 1, some 7, some 23⟩, [("name", .text "A")], [
        ⟨"body", "Assign", some ⟨3, 2, some 3, some 13⟩, [], [
          ⟨"targets", "Tuple", some ⟨3, 2, some 3, some 6⟩, [], [
            ⟨"elts", "Name", some ⟨3, 2, some 3, some 3⟩, [("id", .text "x")], []⟩,
            ⟨"elts", "Name", some ⟨3, 5, some 3, some 6⟩, [("id", .text "y")], []⟩]⟩]⟩,
        ⟨"body", "FunctionDef", some ⟨5, 2, some 5, some 19⟩, [("name", .text "p")], [
          ⟨"args", "arguments", none, [], []⟩,
          ⟨"decorator_list", "Attribute", some ⟨4, 3, some 4, some 11⟩,
            [("attr", .text "setter")], [
            ⟨"value", "Name", some ⟨4, 3, some 4, some 4⟩, [("id", .text "p")], []⟩]⟩]⟩,
        ⟨"body", "FunctionDef", some ⟨6, 2, some 7, some 23⟩, [("name", .text "m")], [
          ⟨"args", "arguments", none, [], []⟩,
          ⟨"body", "ClassDef", some ⟨7, 3, some 7, some 23⟩, [("name", .text "E")], [
            ⟨"bases", "Name", some ⟨7, 11, some 7, some 15⟩, [("id", .text "Enum")], []⟩,
            ⟨"body", "Assign", some ⟨7, 18, some 7, some 23⟩, [], [
              ⟨"targets", "Name", some ⟨7, 18, some 7, some 19⟩, [("id", .text "C")], []⟩]⟩]⟩]⟩]⟩]⟩,
    ⟨"body", "Assign", some ⟨8, 0, some 8, some 5⟩, [], [
      ⟨"targets", "Name", some ⟨8, 0, some 8, some 1⟩, [("id", .text "z")], []⟩]⟩]⟩

/-- What a parser makes of the text of `layeredTree`. -/
def layered : Parsed Node where
  path := some (.ofString "m.py")
  source := ("def f():\n class A:\n  x, y = 1, 2\n  @p.setter\n  def p(self, v): 0\n" ++
    "  def m(self):\n   class E(Enum): C = 1\nz = 0\n").toUTF8.toList
  tree := some layeredTree
  problems := []

theorem arrangement_of_convert_layered :
    ∃ u, convert toString [] none (some layered) = .ok u ∧
      u.definitions.map (fun d => d.kind)
        = [.function, .type, .variable, .variable, .function, .enum, .variable] ∧
      List.Forall₂ (fun c d => ∃ ms, IsClassOutline (.ofSource layered.source) c.1 c.2 d ms)
        (classesWithin none layeredTree)
        ((u.definitions.map Definition.toContent).filter (fun d => isClassKind d.kind)) := by
  have hcheck : (match convert toString [] none (some layered) with
      | .ok u => u.definitions.map (fun d => d.kind)
      | .error _ => [])
        = [.function, .type, .variable, .variable, .function, .enum, .variable] := by
    decide +kernel
  have hroot : layered.tree? = some layeredTree := rfl
  split at hcheck
  · next u hu =>
    exact ⟨u, hu, hcheck, (arrangement_of_convert hroot rfl (by decide +kernel) hu).2.1⟩
  · cases hcheck

end CodeOutline.Python
