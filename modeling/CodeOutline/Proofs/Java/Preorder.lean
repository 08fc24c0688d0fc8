/-
CodeOutline/Proofs/Java/Preorder.lean

The order in which a walk meets the nodes of a tree.

As a program a walk is a loop over a stack: a round takes the node at the end of the stack, meets
it, and pushes its children from the last one to the first one (`Traversal.round?`).  Whatever is on
the stack, the loop comes to an end, and it has met what `walk` gives for the stack
(`Traversal.reaches_walk`).

Two nodes of a tree may look the same, so a node is told by its address: which child to go to, step
by step, from the node that the walk sets out from.  `Precedes` says when an address comes before
another one, and `IsPreorder` when addresses are listed in that order and none is left out or comes
twice.  `Precedes` is the lexicographic order (`precedes_iff`), and `Node.addresses` is sorted by it
(`pairwise_addresses`), so this is such a list, and the only one (`isPreorder_iff`).  The nodes at
these addresses, one after the other, are the preorder of the tree (`map_some_preorder`).

In a tree whose nodes lie inside and behind each other (`Node.InOrder`) they start one after the
other (`Node.InOrder.pairwise_nodes`): what lies below a child ends before a later child starts.

The main statement puts these together (`walk_in_preorder`).
-/
import CodeOutline.Proofs.Java.Arrangement
import Mathlib.Computability.StateTransition
import Mathlib.Data.List.Sort

namespace CodeOutline.Java

/-! ### Rounds -/

/-- A walk under way: the nodes that it has met, and the stack of those that it still has to visit,
with the next one at the end. -/
structure Traversal where
  met : List Located
  stack : List Located

namespace Traversal

open StateTransition (Reaches eval mem_eval)

/-- A walk that sets out from a node. -/
def start (l : Located) : Traversal := ⟨[], [l]⟩

/-- A round: the node at the end of the stack is taken off and met, and its children are pushed from
the last one to the first one.  There is no further round if the stack is empty. -/
def round? (t : Traversal) : Option Traversal :=
  t.stack.getLast?.map fun l =>
    { met := t.met ++ [l], stack := t.stack.dropLast ++ l.children.reverse }

/-- The children of the node that is met come in front of what was pending. -/
theorem round?_reverse (met : List Located) (l : Located) (pending : List Located) :
    round? ⟨met, (l :: pending).reverse⟩
      = some ⟨met ++ [l], (l.children ++ pending).reverse⟩ := by
  simp [round?]

/-- However many nodes are pending, the stack gets empty. -/
theorem reaches_walk (met pending : List Located) :
    Reaches round? ⟨met, pending.reverse⟩ ⟨met ++ Located.walk pending, []⟩ := by
  induction pending using Located.walk.induct generalizing met with
  | case1 =>
    rw [Located.walk, List.append_nil]
    exact Relation.ReflTransGen.refl
  | case2 l pending ih =>
    have hrest := ih (met ++ [l])
    rw [List.append_assoc, List.singleton_append] at hrest
    rw [Located.walk]
    exact hrest.head (round?_reverse met l pending)

/-- The loop ends, and has met then what a walk gives. -/
theorem mem_eval_start (l : Located) : ⟨Located.walk [l], []⟩ ∈ eval round? (start l) :=
  mem_eval.mpr ⟨reaches_walk [] [l], rfl⟩

end Traversal

/-! ### Addresses -/

mutual

/-- The addresses of the nodes of a tree: which child to go to, step by step. -/
def Node.addresses : Node → List (List Nat)
  | ⟨_, _, _, _, _, _, _, cs⟩ => [] :: addressesFrom 0 cs

/-- The addresses of the nodes of siblings that are numbered from `i` on. -/
def addressesFrom (i : Nat) : List Node → List (List Nat)
  | [] => []
  | n :: ns => n.addresses.map (i :: ·) ++ addressesFrom (i + 1) ns

end

theorem addressesFrom_eq (i : Nat) (ns : List Node) :
    addressesFrom i ns = (ns.zipIdx i).flatMap (fun c => c.1.addresses.map (c.2 :: ·)) := by
  induction ns generalizing i with
  | nil => rfl
  | cons n ns ih => rw [addressesFrom, ih, List.zipIdx_cons, List.flatMap_cons]

theorem Node.addresses_eq (n : Node) :
    n.addresses = [] :: n.children.zipIdx.flatMap (fun c => c.1.addresses.map (c.2 :: ·)) := by
  obtain ⟨kind, start, stop, field, named, missing, flagged, cs⟩ := n
  rw [addresses, addressesFrom_eq]

namespace Located

/-- The node at an address below a node. -/
def at? (l : Located) : List Nat → Option Located
  | [] => some l
  | i :: p => l.children[i]?.bind fun c => c.at? p

@[simp] theorem at?_nil (l : Located) : l.at? [] = some l := rfl

theorem at?_cons_of_getElem? {l c : Located} {i : Nat} (h : l.children[i]? = some c)
    (p : List Nat) : l.at? (i :: p) = c.at? p := by
  rw [at?, h, Option.bind_some]

/-- The addresses below a node, by those below its children. -/
theorem addresses_eq (l : Located) :
    l.node.addresses = [] :: l.children.zipIdx.flatMap
      (fun c => c.1.node.addresses.map (c.2 :: ·)) := by
  rw [Node.addresses_eq, ← map_node_children, List.zipIdx_map, List.flatMap_map]
  rfl

theorem cons_mem_addresses_iff {l : Located} {i : Nat} {p : List Nat} :
    i :: p ∈ l.node.addresses ↔ ∃ c, l.children[i]? = some c ∧ p ∈ c.node.addresses := by
  rw [addresses_eq, List.mem_cons, List.mem_flatMap]
  simp only [reduceCtorEq, false_or, Prod.exists, List.mem_zipIdx_iff_getElem?, List.mem_map,
    List.cons.injEq]
  constructor
  · rintro ⟨c, _, hc, q, hq, rfl, rfl⟩
    exact ⟨c, hc, hq⟩
  · rintro ⟨c, hc, hp⟩
    exact ⟨c, i, hc, p, hp, rfl, rfl⟩

/-- The addresses of a tree are those at which there is a node. -/
theorem mem_addresses_iff {l : Located} {p : List Nat} :
    p ∈ l.node.addresses ↔ (l.at? p).isSome = true := by
  induction p generalizing l with
  | nil =>
    rw [addresses_eq]
    simp
  | cons i p ih =>
    rw [cons_mem_addresses_iff]
    rcases e : l.children[i]? with - | c
    · simp [at?, e]
    · simp [at?_cons_of_getElem? e, ih]

/-- The nodes of a tree in preorder are those at its addresses. -/
theorem map_some_preorder (l : Located) : l.preorder.map some = l.node.addresses.map l.at? := by
  induction l using childInduction with
  | parent l ih =>
    have hchild : ∀ c ∈ l.children.zipIdx,
        c.1.preorder.map some = (c.1.node.addresses.map (c.2 :: ·)).map l.at? := by
      rintro ⟨c, i⟩ hc
      have hget : l.children[i]? = some c := List.mem_zipIdx_iff_getElem?.mp hc
      rw [ih c (List.mem_of_getElem? hget), List.map_map]
      exact List.map_congr_left fun p _ => (at?_cons_of_getElem? hget p).symm
    have hchildren : l.children.flatMap (fun c => c.preorder.map some)
        = l.children.zipIdx.flatMap (fun c => c.1.preorder.map some) := by
      conv_lhs => rw [← List.zipIdx_map_fst 0 l.children]
      exact List.flatMap_map ..
    rw [preorder_eq, addresses_eq, List.map_cons, List.map_cons, List.map_flatMap,
      List.map_flatMap, hchildren, List.flatMap_congr hchild]
    rfl

/-! ### The order of addresses -/

/-- The addresses of a tree are listed in lexicographic order. -/
theorem pairwise_addresses (n : Node) : n.addresses.Pairwise (· < ·) := by
  induction n using Node.childInduction with
  | parent n ih =>
    have hnumbers : n.children.zipIdx.Pairwise (fun c d => c.2 < d.2) := by
      apply List.pairwise_map.mp
      rw [List.zipIdx_map_snd]
      exact List.pairwise_lt_range'
    rw [Node.addresses_eq, List.pairwise_cons, List.pairwise_flatMap]
    refine ⟨?_, ?_, ?_⟩
    · -- the node itself comes first
      intro p hp
      obtain ⟨c, -, hp⟩ := List.mem_flatMap.mp hp
      obtain ⟨q, -, rfl⟩ := List.mem_map.mp hp
      exact List.nil_lt_cons _ _
    · -- what lies below one child
      rintro ⟨c, i⟩ hc
      have hget : n.children[i]? = some c := List.mem_zipIdx_iff_getElem?.mp hc
      apply List.pairwise_map.mpr
      exact (ih c (List.mem_of_getElem? hget)).imp fun h => List.cons_lt_cons_self.mpr h
    · -- what lies below two of them
      refine hnumbers.imp fun hlt p hp q hq => ?_
      obtain ⟨p, -, rfl⟩ := List.mem_map.mp hp
      obtain ⟨q, -, rfl⟩ := List.mem_map.mp hq
      exact List.cons_lt_cons_iff.mpr (.inl hlt)

/-! ### Listings -/

/-- An address comes before another one: the other one lies below it, or they lie below two children
of one node, the first below the earlier of these. -/
inductive Precedes : List Nat → List Nat → Prop
  | below (p : List Nat) (i : Nat) (q : List Nat) : Precedes p (p ++ i :: q)
  | beside {i j : Nat} (h : i < j) (p q r : List Nat) : Precedes (p ++ i :: q) (p ++ j :: r)

theorem Precedes.cons {p q : List Nat} (i : Nat) (h : Precedes p q) :
    Precedes (i :: p) (i :: q) := by
  cases h with
  | below _ j q => exact .below (i :: p) j q
  | beside hlt p q r => exact .beside hlt (i :: p) q r

/-- What comes before what is the lexicographic order. -/
theorem precedes_iff {p q : List Nat} : Precedes p q ↔ p < q := by
  constructor
  · intro h
    cases h with
    | below _ i q =>
      have hlt : p ++ [] < p ++ i :: q := List.append_left_lt (List.nil_lt_cons i q)
      rwa [List.append_nil] at hlt
    | beside hlt p q r => exact List.append_left_lt (List.cons_lt_cons_iff.mpr (.inl hlt))
  · intro h
    -- the induction is on the steps that the two addresses share
    induction h with
    | nil => exact .below [] _ _
    | rel hlt => exact .beside hlt [] _ _
    | cons _ ih => exact ih.cons _

/-- Addresses in the order in which the nodes below a node are to be met: each node comes once,
before those that lie below it, and what lies below a child before what lies below a later one. -/
structure IsPreorder (l : Located) (ps : List (List Nat)) : Prop where
  once : ps.Nodup
  all : ∀ p, p ∈ ps ↔ (l.at? p).isSome = true
  ordered : ∀ p ∈ ps, ∀ q ∈ ps, ps.idxOf p < ps.idxOf q ↔ Precedes p q

theorem idxOf_lt_idxOf_iff {ps : List (List Nat)} {p q : List Nat} (h : ps.SortedLT) (hp : p ∈ ps)
    (hq : q ∈ ps) : ps.idxOf p < ps.idxOf q ↔ p < q := by
  have hip : ps.idxOf p < ps.length := List.idxOf_lt_length_of_mem hp
  have hiq : ps.idxOf q < ps.length := List.idxOf_lt_length_of_mem hq
  have hlt : ps[ps.idxOf p] < ps[ps.idxOf q] ↔ ps.idxOf p < ps.idxOf q := h.getElem_lt_getElem_iff
  rw [List.getElem_idxOf, List.getElem_idxOf] at hlt
  exact hlt.symm

theorem IsPreorder.sortedLT {l : Located} {ps : List (List Nat)} (h : l.IsPreorder ps) :
    ps.SortedLT := by
  apply List.Pairwise.sortedLT
  apply List.pairwise_iff_getElem.mpr
  intro i j hi hj hlt
  apply precedes_iff.mp
  apply (h.ordered _ (List.getElem_mem hi) _ (List.getElem_mem hj)).mp
  rw [h.once.idxOf_getElem i hi, h.once.idxOf_getElem j hj]
  exact hlt

/-- There is one such order only. -/
theorem isPreorder_iff {l : Located} {ps : List (List Nat)} :
    l.IsPreorder ps ↔ ps = l.node.addresses := by
  have hsorted := (pairwise_addresses l.node).sortedLT
  constructor
  · intro h
    exact h.sortedLT.eq_of_mem_iff hsorted fun p => (h.all p).trans mem_addresses_iff.symm
  · rintro rfl
    refine ⟨hsorted.nodup, fun p => mem_addresses_iff, fun p hp q hq => ?_⟩
    rw [precedes_iff]
    exact idxOf_lt_idxOf_iff hsorted hp hq

end Located

/-! ### Ranges -/

/-- The nodes of a tree lie inside each other, and those with the same parent behind each other. -/
structure Node.InOrder (root : Node) : Prop where
  nested : ∀ n, Below root n → ∀ c ∈ n.children,
    n.start ≤ c.start ∧ c.start ≤ c.stop ∧ c.stop ≤ n.stop
  ordered : ∀ n, Below root n → n.children.Pairwise (fun c d => c.stop ≤ d.start)

instance (root : Node) : Decidable root.InOrder :=
  decidable_of_iff
    ((∀ n, Below root n → ∀ c ∈ n.children,
        n.start ≤ c.start ∧ c.start ≤ c.stop ∧ c.stop ≤ n.stop) ∧
      ∀ n, Below root n → n.children.Pairwise (fun c d => c.stop ≤ d.start))
    ⟨fun ⟨h₁, h₂⟩ => ⟨h₁, h₂⟩, fun ⟨h₁, h₂⟩ => ⟨h₁, h₂⟩⟩

namespace Node.InOrder

variable {n c m : Node}

theorem child (h : n.InOrder) (hc : c ∈ n.children) : c.InOrder :=
  ⟨fun m hm => h.nested m (.child hc hm), fun m hm => h.ordered m (.child hc hm)⟩

/-- The nodes below a node with a range lie in that range. -/
theorem within (h : n.InOrder) (hn : n.start ≤ n.stop) (hm : Below n m) :
    n.start ≤ m.start ∧ m.start ≤ m.stop ∧ m.stop ≤ n.stop := by
  -- the induction is on the way down to the node
  induction hm with
  | self n => exact ⟨Nat.le_refl _, hn, Nat.le_refl _⟩
  | @child n c m hc _ ih =>
    obtain ⟨hstart, hrange, hstop⟩ := h.nested n (.self n) c hc
    obtain ⟨hfirst, hbetween, hlast⟩ := ih (h.child hc) hrange
    exact ⟨Nat.le_trans hstart hfirst, hbetween, Nat.le_trans hlast hstop⟩

/-- The nodes of a tree in source order start one after the other. -/
theorem pairwise_nodes (h : n.InOrder) : n.nodes.Pairwise (fun a b => a.start ≤ b.start) := by
  induction n using Node.childInduction with
  | parent n ih =>
    have hchild : ∀ c ∈ n.children, ∀ m ∈ c.nodes, c.start ≤ m.start ∧ m.start ≤ c.stop := by
      intro c hc m hm
      obtain ⟨-, hrange, -⟩ := h.nested n (.self n) c hc
      obtain ⟨hfirst, hbetween, hlast⟩ := (h.child hc).within hrange (Node.mem_nodes_iff.mp hm)
      exact ⟨hfirst, Nat.le_trans hbetween hlast⟩
    rw [Node.nodes_eq, List.pairwise_cons, List.pairwise_flatMap]
    refine ⟨?_, fun c hc => ih c hc (h.child hc), ?_⟩
    · intro m hm
      obtain ⟨c, hc, hm⟩ := List.mem_flatMap.mp hm
      exact Nat.le_trans (h.nested n (.self n) c hc).1 (hchild c hc m hm).1
    · -- the end of a child lies between the nodes below it and those below a later one
      refine (h.ordered n (.self n)).imp_of_mem fun hc hd hle a ha b hb => ?_
      calc a.start ≤ _ := (hchild _ hc a ha).2
        _ ≤ _ := hle
        _ ≤ b.start := (hchild _ hd b hb).1

end Node.InOrder

/-! ### Walks -/

namespace Located

/-- A walk that sets out from a node is a loop over a stack that comes to an end, and it is the
preorder of the tree: each node comes once, before those that lie below it, and what lies below a
child comes before what lies below a later one.  If the nodes of the tree lie inside and behind each
other, then no node starts before one that has been met earlier. -/
theorem walk_in_preorder (l : Located) :
    ⟨walk [l], []⟩ ∈ StateTransition.eval Traversal.round? (.start l) ∧
    walk [l] = l.preorder ∧
    (∃ ps, (∀ qs, l.IsPreorder qs ↔ qs = ps) ∧ (walk [l]).map some = ps.map l.at?) ∧
    (l.node.InOrder → (walk [l]).Pairwise (fun a b => a.node.start ≤ b.node.start)) := by
  refine ⟨Traversal.mem_eval_start l, walk_singleton l, ?_, ?_⟩
  · refine ⟨l.node.addresses, fun qs => isPreorder_iff, ?_⟩
    rw [walk_singleton]
    exact map_some_preorder l
  · intro h
    have hnodes := h.pairwise_nodes
    rw [← map_node_preorder, ← walk_singleton, List.pairwise_map] at hnodes
    exact hnodes

theorem walk_in_preorder_nested :
    nestedTree.InOrder ∧
      (walk [ofRoot nestedTree]).Pairwise (fun a b => a.node.start ≤ b.node.start) := by
  have h : nestedTree.InOrder := by decide +kernel
  exact ⟨h, (walk_in_preorder (ofRoot nestedTree)).2.2.2 h⟩

end Located

end CodeOutline.Java
