/-
CodeOutline/Java/Tree.lean

Syntax trees of Java sources.

A node has a kind, a range of octets, and children in source order; a child may fill a field of
its parent, and is named unless it is a mere token.  `Located` is a node with what lies around it.
`walk` goes through a tree with a list of nodes still to be visited, and `preorder` by recursion;
both give every node before its descendants and the descendants of a child before its next
sibling.
-/

namespace CodeOutline.Java

/-- A node of a syntax tree. -/
structure Node where
  kind : String
  /-- The octets of the node: from `start` up to `stop`. -/
  start : Nat
  stop : Nat
  /-- The field of the parent that the node fills. -/
  field : Option String
  named : Bool
  /-- The parser put the node in where the source lacks it. -/
  missing : Bool
  /-- The parser marked the node as erroneous. -/
  flagged : Bool
  children : List Node
  deriving Repr

namespace Node

/-! ### Children -/

/-- The children that are no mere tokens. -/
def namedChildren (n : Node) : List Node := n.children.filter Node.named

/-- The children that fill a field. -/
def fieldChildren (n : Node) (field : String) : List Node :=
  n.children.filter (fun c => c.field == some field)

/-- The first child that fills a field. -/
def fieldChild? (n : Node) (field : String) : Option Node :=
  n.children.find? (fun c => c.field == some field)

/-- The first child of a kind. -/
def childOfKind? (n : Node) (kind : String) : Option Node :=
  n.children.find? (fun c => c.kind == kind)

/-! ### Whole trees -/

mutual

/-- The number of nodes of a tree. -/
def size : Node → Nat
  | ⟨_, _, _, _, _, _, _, cs⟩ => 1 + sizes cs

/-- The number of nodes of some trees. -/
def sizes : List Node → Nat
  | [] => 0
  | n :: ns => size n + sizes ns

end

theorem size_eq (n : Node) : n.size = 1 + sizes n.children := by
  cases n
  rfl

theorem sizes_append (a b : List Node) : sizes (a ++ b) = sizes a + sizes b := by
  induction a with
  | nil => simp [sizes]
  | cons n ns ih => simp [sizes, ih, Nat.add_assoc]

mutual

/-- Whether a tree holds an erroneous, missing or flagged node. -/
def hasError : Node → Bool
  | ⟨kind, _, _, _, _, missing, flagged, cs⟩ =>
    flagged || missing || kind == "ERROR" || anyError cs

/-- Whether one of some trees holds an erroneous node. -/
def anyError : List Node → Bool
  | [] => false
  | n :: ns => hasError n || anyError ns

end

end Node

/-! ### Nodes in their surroundings -/

/-- A node with the nodes around it. -/
structure Located where
  node : Node
  /-- The nodes that hold it, innermost first. -/
  ancestors : List Node
  /-- The child of the same parent right before it. -/
  previous : Option Node

namespace Located

/-- The root of a tree. -/
def ofRoot (root : Node) : Located := ⟨root, [], none⟩

/-- Siblings in their surroundings. -/
def siblings (ancestors : List Node) (previous : Option Node) : List Node → List Located
  | [] => []
  | n :: ns => ⟨n, ancestors, previous⟩ :: siblings ancestors (some n) ns

/-- The children of a node in their surroundings. -/
def children (l : Located) : List Located :=
  siblings (l.node :: l.ancestors) none l.node.children

@[simp] theorem map_node_siblings (ancestors : List Node) (previous : Option Node)
    (ns : List Node) : (siblings ancestors previous ns).map Located.node = ns := by
  induction ns generalizing previous with
  | nil => rfl
  | cons n ns ih => simp [siblings, ih]

@[simp] theorem map_node_children (l : Located) :
    l.children.map Located.node = l.node.children := by
  simp [children]

/-- The number of nodes still to be visited. -/
def pendingSize (pending : List Located) : Nat := Node.sizes (pending.map Located.node)

theorem pendingSize_step (l : Located) (pending : List Located) :
    pendingSize (l.children ++ pending) < pendingSize (l :: pending) := by
  simp only [pendingSize, List.map_append, map_node_children, Node.sizes_append, List.map_cons,
    Node.sizes, Node.size_eq]
  omega

/-- The nodes of a tree, visited with a list of nodes still to come: the children of a node are
put in front of it. -/
def walk : List Located → List Located
  | [] => []
  | l :: pending => l :: walk (l.children ++ pending)
termination_by pending => pendingSize pending
decreasing_by exact pendingSize_step l pending

/-- The nodes of the tree below a node in its surroundings, by recursion on the tree. -/
def preorder (l : Located) : List Located :=
  match l with
  | ⟨n, ancestors, previous⟩ => go n ancestors previous
where
  /-- The nodes of a tree in its surroundings. -/
  go : Node → List Node → Option Node → List Located
    | ⟨kind, start, stop, field, named, missing, flagged, cs⟩, ancestors, previous =>
      let n : Node := ⟨kind, start, stop, field, named, missing, flagged, cs⟩
      ⟨n, ancestors, previous⟩ :: goAll cs (n :: ancestors) none
  /-- The nodes of siblings in their surroundings. -/
  goAll : List Node → List Node → Option Node → List Located
    | [], _, _ => []
    | n :: ns, ancestors, previous => go n ancestors previous ++ goAll ns ancestors (some n)

end Located

end CodeOutline.Java
