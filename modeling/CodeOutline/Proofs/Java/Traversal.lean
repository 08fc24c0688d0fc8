/-
CodeOutline/Proofs/Java/Traversal.lean

What a walk through a tree meets.

`Below` is the relation of a tree to the nodes it holds.  A walk with a list of pending nodes goes
through the trees of these nodes one after the other, each in preorder (`walk_eq_flatMap_preorder`),
so from a single node it is the preorder of the tree below it (`walk_singleton`).  It meets every
node of the tree it started in (`exists_mem_walk_iff`), with ancestors and siblings from the same
tree (`inside_of_mem_walk`).  It meets the children of each node once (`perm_walk`), so no two nodes
that it meets stand right after the same one (`subperm_filterMap_previous`).  What lies around a
tree does not matter for the nodes in it (`Located.map_node_preorder`), which `Node.nodes` lists.

`typesWithin` lists the type declarations of a tree by recursion, each with the innermost one
around it.  A walk meets the same declarations in the same order, and the ancestors it carries
along name the same surroundings (`filterMap_declaration?_walk`).
-/
import CodeOutline.Java.Outline
import Mathlib.Data.List.Flatten
import Mathlib.Data.List.Perm.Subperm

namespace CodeOutline.Java

/-- The nodes of a tree. -/
inductive Below : Node → Node → Prop
  | self (n : Node) : Below n n
  | child {n c d : Node} : c ∈ n.children → Below c d → Below n d

theorem Below.trans {a b c : Node} (h : Below a b) (h' : Below b c) : Below a c := by
  induction h with
  | self => exact h'
  | child hmem _ ih => exact .child hmem (ih h')

theorem Below.of_mem {root n c : Node} (h : Below root n) (hc : c ∈ n.children) : Below root c :=
  h.trans (.child hc (.self c))

theorem mem_children_of_fieldChild? {n c : Node} {field : String}
    (h : n.fieldChild? field = some c) : c ∈ n.children := List.mem_of_find?_eq_some h

theorem mem_children_of_childOfKind? {n c : Node} {kind : String}
    (h : n.childOfKind? kind = some c) : c ∈ n.children := List.mem_of_find?_eq_some h

theorem mem_children_of_namedChildren {n c : Node} (h : c ∈ n.namedChildren) : c ∈ n.children :=
  List.mem_of_mem_filter h

/-! ### Trees and their children -/

/-- What holds of a tree whenever it holds of those of its children holds of all trees. -/
@[elab_as_elim]
theorem Node.childInduction {P : Node → Prop}
    (parent : ∀ n : Node, (∀ c ∈ n.children, P c) → P n) (n : Node) : P n :=
  parent n fun c hc =>
    have hlt : sizeOf c < sizeOf n := by
      have := List.sizeOf_lt_of_mem hc
      obtain ⟨kind, start, stop, field, named, missing, flagged, cs⟩ := n
      simp only [Node.mk.sizeOf_spec] at this ⊢
      omega
    Node.childInduction parent c
termination_by sizeOf n

/-- What holds of all nodes of a tree holds of its root and of all nodes of its children. -/
theorem forall_below_iff {n : Node} {P : Node → Prop} :
    (∀ m, Below n m → P m) ↔ P n ∧ ∀ c ∈ n.children, ∀ m, Below c m → P m := by
  constructor
  · exact fun h => ⟨h n (.self n), fun c hc m hm => h m (.child hc hm)⟩
  · rintro ⟨hn, hchildren⟩ m hm
    cases hm with
    | self => exact hn
    | child hc hm => exact hchildren _ hc m hm

namespace Located

/-! ### The order of a walk -/

theorem goAll_eq (cs : List Node) (ancestors : List Node) (previous : Option Node) :
    preorder.goAll cs ancestors previous = (siblings ancestors previous cs).flatMap preorder := by
  induction cs generalizing previous with
  | nil => rfl
  | cons c cs ih => rw [preorder.goAll, ih, siblings, List.flatMap_cons, preorder]

theorem preorder_eq (l : Located) : l.preorder = l :: l.children.flatMap preorder := by
  obtain ⟨⟨kind, start, stop, field, named, missing, flagged, cs⟩, ancestors, previous⟩ := l
  rw [preorder, preorder.go, goAll_eq]
  rfl

/-- A walk is the preorder of the pending trees, one after the other. -/
theorem walk_eq_flatMap_preorder (pending : List Located) :
    walk pending = pending.flatMap preorder := by
  induction pending using walk.induct with
  | case1 => simp [walk]
  | case2 l pending ih =>
    rw [walk, ih, List.flatMap_append, List.flatMap_cons, preorder_eq]
    rfl

theorem walk_singleton (l : Located) : walk [l] = l.preorder := by
  rw [walk_eq_flatMap_preorder, List.flatMap_singleton]

theorem node_mem_of_mem_children {l c : Located} (h : c ∈ l.children) :
    c.node ∈ l.node.children := by
  rw [← map_node_children]
  exact List.mem_map_of_mem h

/-- What holds of a node whenever it holds of its children holds of all nodes. -/
@[elab_as_elim]
theorem childInduction {P : Located → Prop} (parent : ∀ l, (∀ c ∈ l.children, P c) → P l)
    (l : Located) : P l := by
  obtain ⟨n, ancestors, previous⟩ := l
  induction n using Node.childInduction generalizing ancestors previous with
  | parent n ih =>
    apply parent
    intro c hc
    exact ih c.node (node_mem_of_mem_children hc) c.ancestors c.previous

end Located

/-! ### The nodes of a tree -/

/-- The nodes of a tree, in source order. -/
def Node.nodes (n : Node) : List Node := (Located.ofRoot n).preorder.map Located.node

theorem Located.flatMap_siblings {α : Type} (f : Node → List α) (ancestors : List Node)
    (previous : Option Node) (ns : List Node) :
    (siblings ancestors previous ns).flatMap (fun l => f l.node) = ns.flatMap f := by
  rw [← List.flatMap_map, map_node_siblings]

/-- The surroundings of a node do not matter for the nodes in it. -/
theorem Located.map_node_preorder (l : Located) : l.preorder.map Located.node = l.node.nodes := by
  obtain ⟨n, ancestors, previous⟩ := l
  induction n using Node.childInduction generalizing ancestors previous with
  | parent n ih =>
    have hchildren : ∀ (around : List Node) (before : Option Node),
        (Located.mk n around before).children.flatMap (fun c => c.preorder.map Located.node)
          = n.children.flatMap Node.nodes := by
      intro around before
      rw [← flatMap_siblings Node.nodes (n :: around) none n.children]
      exact List.flatMap_congr fun c hc =>
        ih c.node (node_mem_of_mem_children hc) c.ancestors c.previous
    rw [Node.nodes, ofRoot, preorder_eq, preorder_eq, List.map_cons, List.map_cons,
      List.map_flatMap, List.map_flatMap, hchildren, hchildren]

theorem Node.nodes_eq (n : Node) : n.nodes = n :: n.children.flatMap Node.nodes := by
  rw [nodes, Located.preorder_eq, List.map_cons, List.map_flatMap]
  simp only [Located.map_node_preorder]
  rw [Located.children, Located.flatMap_siblings]
  rfl

theorem Node.mem_nodes_iff {n m : Node} : m ∈ n.nodes ↔ Below n m := by
  induction n using Node.childInduction with
  | parent n ih =>
    rw [nodes_eq, List.mem_cons, List.mem_flatMap]
    constructor
    · rintro (rfl | ⟨c, hc, hm⟩)
      · exact .self m
      · exact .child hc ((ih c hc).mp hm)
    · intro h
      cases h with
      | self => exact .inl rfl
      | child hc hm => exact .inr ⟨_, hc, (ih _ hc).mpr hm⟩

namespace Located

/-! ### Staying inside a tree -/

theorem ancestors_of_mem_siblings {ancestors : List Node} {previous : Option Node}
    {ns : List Node} {l : Located} (h : l ∈ siblings ancestors previous ns) :
    l.ancestors = ancestors := by
  induction ns generalizing previous with
  | nil => cases h
  | cons n ns ih =>
    rcases List.mem_cons.mp h with rfl | h
    · rfl
    · exact ih h

/-- A node of a tree, with nodes of the tree around it. -/
structure Inside (root : Node) (l : Located) : Prop where
  node : Below root l.node
  ancestors : ∀ a ∈ l.ancestors, Below root a
  previous : ∀ p, l.previous = some p → Below root p

theorem inside_ofRoot (root : Node) : Inside root (.ofRoot root) :=
  ⟨.self root, by simp [ofRoot], by simp [ofRoot]⟩

theorem inside_siblings {root : Node} {ancestors : List Node} {previous : Option Node}
    {ns : List Node} (hns : ∀ n ∈ ns, Below root n) (ha : ∀ a ∈ ancestors, Below root a)
    (hp : ∀ p, previous = some p → Below root p) :
    ∀ c ∈ siblings ancestors previous ns, Inside root c := by
  induction ns generalizing previous with
  | nil => simp [siblings]
  | cons n ns ih =>
    have hn : Below root n := hns n List.mem_cons_self
    intro c hc
    rcases List.mem_cons.mp hc with rfl | hc
    · exact ⟨hn, ha, hp⟩
    · -- the node stands right before the next one
      refine ih (fun m hm => hns m (List.mem_cons_of_mem _ hm)) ?_ c hc
      rintro p hp
      cases hp
      exact hn

theorem Inside.children {root : Node} {l : Located} (h : Inside root l) :
    ∀ c ∈ l.children, Inside root c := by
  apply inside_siblings
  · exact fun n hn => h.node.of_mem hn
  · intro a ha
    rcases List.mem_cons.mp ha with rfl | ha
    · exact h.node
    · exact h.ancestors a ha
  · simp

theorem inside_of_mem_walk_pending {root : Node} {pending : List Located}
    (h : ∀ l ∈ pending, Inside root l) : ∀ l ∈ walk pending, Inside root l := by
  induction pending using walk.induct with
  | case1 => simp [walk]
  | case2 l pending ih =>
    have hl : Inside root l := h l List.mem_cons_self
    intro m hm
    rw [walk] at hm
    rcases List.mem_cons.mp hm with rfl | hm
    · exact hl
    · -- what is pending now are the children of the node and what was pending before
      refine ih ?_ m hm
      intro c hc
      rcases List.mem_append.mp hc with hc | hc
      · exact hl.children c hc
      · exact h c (List.mem_cons_of_mem _ hc)

/-- A walk through a tree stays inside it. -/
theorem inside_of_mem_walk {root : Node} {l : Located} (h : l ∈ walk [ofRoot root]) :
    Inside root l := by
  refine inside_of_mem_walk_pending ?_ l h
  intro c hc
  rw [List.mem_singleton.mp hc]
  exact inside_ofRoot root

/-- A walk meets the nodes of a tree and no others. -/
theorem exists_mem_walk_iff {root n : Node} :
    (∃ l ∈ walk [ofRoot root], l.node = n) ↔ Below root n := by
  rw [walk_singleton, ← Node.mem_nodes_iff, Node.nodes, List.mem_map]

/-! ### Meeting nodes once -/

theorem subperm_flatMap {α β : Type} {as bs : List α} (h : as.Subperm bs) (f : α → List β) :
    (as.flatMap f).Subperm (bs.flatMap f) := by
  obtain ⟨cs, hperm, hsub⟩ := h
  exact ⟨cs.flatMap f, hperm.flatMap_right f, hsub.flatMap f⟩

theorem subperm_filterMap {α β : Type} {as bs : List α} (h : as.Subperm bs) (f : α → Option β) :
    (as.filterMap f).Subperm (bs.filterMap f) := by
  obtain ⟨cs, hperm, hsub⟩ := h
  exact ⟨cs.filterMap f, hperm.filterMap f, hsub.filterMap f⟩

/-- A walk meets the pending nodes and the children of each node that it meets, all of them
once. -/
theorem perm_walk (pending : List Located) :
    (walk pending).Perm (pending ++ (walk pending).flatMap children) := by
  induction pending using walk.induct with
  | case1 => simp [walk]
  | case2 l pending ih =>
    rw [walk, List.flatMap_cons, List.cons_append]
    refine List.Perm.cons l (ih.trans ?_)
    -- the children of the node come first, so they change places with what was pending
    rw [List.append_assoc, ← List.append_assoc, ← List.append_assoc]
    exact List.perm_append_comm.append_right _

theorem subperm_flatMap_children (root : Node) :
    ((walk [ofRoot root]).flatMap children).Subperm (walk [ofRoot root]) :=
  (List.sublist_append_right _ _).subperm.trans (perm_walk [ofRoot root]).symm.subperm

theorem filterMap_previous_siblings_sublist (ancestors : List Node) (previous : Option Node)
    (ns : List Node) :
    ((siblings ancestors previous ns).filterMap Located.previous).Sublist
      (previous.toList ++ ns) := by
  induction ns generalizing previous with
  | nil => exact List.nil_sublist _
  | cons n ns ih =>
    have hrest := ih (some n)
    rw [siblings]
    cases previous with
    | none => exact hrest
    | some p => exact hrest.cons_cons p

/-- The nodes right before those that a walk meets are among them too, each of them once. -/
theorem subperm_filterMap_previous (root : Node) :
    ((walk [ofRoot root]).filterMap Located.previous).Subperm
      ((walk [ofRoot root]).map Located.node) := by
  have hchildren : ((walk [ofRoot root]).flatMap
      (fun l => l.children.filterMap Located.previous)).Sublist
        ((walk [ofRoot root]).flatMap (fun l => l.children.map Located.node)) := by
    refine List.Sublist.flatMap_right _ fun l _ => ?_
    rw [map_node_children]
    exact filterMap_previous_siblings_sublist _ none _
  -- the root has no node before it, and all others are children
  have hwalk := (perm_walk [ofRoot root]).filterMap Located.previous
  rw [List.filterMap_append, List.filterMap_flatMap] at hwalk
  rw [← List.map_flatMap] at hchildren
  obtain ⟨ns, hperm, hsub⟩ := subperm_flatMap_children root
  exact (hwalk.subperm.trans hchildren.subperm).trans
    ⟨ns.map Located.node, hperm.map _, hsub.map _⟩

end Located

/-- What all nodes of a tree have in common can be decided on a walk. -/
instance {root : Node} {P : Node → Prop} [DecidablePred P] :
    Decidable (∀ n, Below root n → P n) :=
  decidable_of_iff (∀ l ∈ Located.walk [.ofRoot root], P l.node) <| by
    simp only [← Located.exists_mem_walk_iff]
    exact ⟨fun h n ⟨l, hl, hn⟩ => hn ▸ h l hl, fun h l hl => h l.node ⟨l, hl, rfl⟩⟩

/-! ### Declarations of types -/

mutual

/-- The type declarations of a tree in source order, each with the innermost one around it. -/
def typesWithin (outer : Option Node) : Node → List (Option Node × Node)
  | ⟨kind, start, stop, field, named, missing, flagged, cs⟩ =>
    let n : Node := ⟨kind, start, stop, field, named, missing, flagged, cs⟩
    if isType n then (outer, n) :: typesAmong (some n) cs else typesAmong outer cs

/-- The type declarations of some trees. -/
def typesAmong (outer : Option Node) : List Node → List (Option Node × Node)
  | [] => []
  | n :: ns => typesWithin outer n ++ typesAmong outer ns

end

/-- The type declaration that a node is, with the innermost one among its ancestors. -/
def declaration? (l : Located) : Option (Option Node × Node) :=
  if isType l.node then some (l.ancestors.find? isType, l.node) else none

mutual

theorem filterMap_declaration?_go (n : Node) (ancestors : List Node) (previous : Option Node) :
    (Located.preorder.go n ancestors previous).filterMap declaration?
      = typesWithin (ancestors.find? isType) n := by
  match n with
  | ⟨kind, start, stop, field, named, missing, flagged, cs⟩ =>
    rw [Located.preorder.go, List.filterMap_cons, typesWithin]
    -- the innermost type around the children is this node, if it is one
    by_cases h : isType ⟨kind, start, stop, field, named, missing, flagged, cs⟩ = true
    · simp only [declaration?, h, if_true]
      rw [filterMap_declaration?_goAll cs _ none, List.find?_cons_of_pos h]
    · simp only [declaration?, h]
      rw [filterMap_declaration?_goAll cs _ none, List.find?_cons_of_neg h]
      rfl

theorem filterMap_declaration?_goAll (cs : List Node) (ancestors : List Node)
    (previous : Option Node) :
    (Located.preorder.goAll cs ancestors previous).filterMap declaration?
      = typesAmong (ancestors.find? isType) cs := by
  match cs with
  | [] => rfl
  | n :: ns =>
    rw [Located.preorder.goAll, List.filterMap_append, typesAmong,
      filterMap_declaration?_go n, filterMap_declaration?_goAll ns]

end

/-- A walk meets the type declarations of a tree in source order. -/
theorem filterMap_declaration?_walk (root : Node) :
    (Located.walk [.ofRoot root]).filterMap declaration? = typesWithin none root := by
  rw [Located.walk_singleton]
  exact filterMap_declaration?_go root [] none

/-- Every type declaration of a tree is listed. -/
theorem exists_mem_typesWithin_iff {root n : Node} :
    (∃ outer, (outer, n) ∈ typesWithin none root) ↔ Below root n ∧ isType n = true := by
  rw [← filterMap_declaration?_walk, ← Located.exists_mem_walk_iff]
  simp only [List.mem_filterMap, declaration?, Option.ite_none_right_eq_some, Option.some.injEq,
    Prod.mk.injEq]
  constructor
  · rintro ⟨outer, l, hl, ht, -, rfl⟩
    exact ⟨⟨l, hl, rfl⟩, ht⟩
  · rintro ⟨⟨l, hl, rfl⟩, ht⟩
    exact ⟨_, l, hl, ht, rfl, rfl⟩

end CodeOutline.Java
