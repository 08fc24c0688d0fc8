/-
CodeOutline/Proofs/Java/NestedFaults.lean

Faults inside faults.

When a parser gives up on a text it may still recognize parts of it, and lack a node or meet a text
that fits nowhere inside what it has given up already.  Such a fault is one of the tree like any
other (`mem_faults_iff`), but nothing is said about it: a tree is complained about by its outermost
faults.  The faults of a tree are the outermost ones with all that each of them hides
(`faults_eq_flatMap_outermostFaults`), so nothing is left out exactly if no fault hides another one
(`outermostFaults_eq_faults_iff`).

The main statement says this of the texts of the problems (`complaints_eq_iff`).  A sentence that
is no source at all gives a tree with two faults and one complaint (`not_forall_complaints_eq`).
-/
import CodeOutline.Proofs.Java.Problems

namespace CodeOutline.Java

open Text.Utf8

variable {n : Node}

/-! ### All faults -/

/-- The faults of a tree, in source order. -/
def faults (n : Node) : List Node := n.nodes.filter Node.isFault

/-- The faults that a node holds, itself apart. -/
def hiddenFaults (n : Node) : List Node := n.children.flatMap faults

theorem mem_faults_iff {m : Node} : m ∈ faults n ↔ Below n m ∧ m.isFault = true := by
  rw [faults, List.mem_filter, Node.mem_nodes_iff]

theorem faults_eq (n : Node) :
    faults n = if n.isFault then n :: hiddenFaults n else hiddenFaults n := by
  have hhidden : (n.children.flatMap Node.nodes).filter Node.isFault = hiddenFaults n :=
    List.filter_flatMap
  rw [faults, Node.nodes_eq, List.filter_cons, hhidden]

theorem hiddenFaults_eq_nil_iff :
    hiddenFaults n = [] ↔ ∀ c ∈ n.children, ∀ m, Below c m → m.isFault = false := by
  rw [hiddenFaults, List.flatMap_eq_nil_iff]
  refine forall₂_congr fun c _ => ?_
  simp only [List.eq_nil_iff_forall_not_mem, mem_faults_iff, not_and, Bool.not_eq_true]

/-- Every fault is an outermost one or hidden by one. -/
theorem faults_eq_flatMap_outermostFaults (root : Node) :
    faults root = (outermostFaults root).flatMap (fun n => n :: hiddenFaults n) := by
  rw [outermostFaults_eq]
  induction root using Node.childInduction with
  | parent n ih =>
    rw [faults_eq, faultsWithin_eq]
    split
    · rw [List.flatMap_singleton]
    · rw [hiddenFaults, faultsAmong_eq_flatMap, List.flatMap_assoc]
      exact List.flatMap_congr ih

theorem mem_faults_of_mem_outermostFaults {root : Node} (h : n ∈ outermostFaults root) :
    n ∈ faults root := by
  rw [faults_eq_flatMap_outermostFaults]
  exact List.mem_flatMap.mpr ⟨n, h, List.mem_cons_self⟩

/-- No fault of a tree lies in another one. -/
def Node.Unnested (root : Node) : Prop :=
  ∀ n, Below root n → n.isFault = true → ∀ c ∈ n.children, ∀ m, Below c m → m.isFault = false

theorem Node.unnested_iff {root : Node} :
    root.Unnested ↔ ∀ n ∈ faults root, hiddenFaults n = [] := by
  simp only [Unnested, mem_faults_iff, hiddenFaults_eq_nil_iff, and_imp]

/-- Where nothing is hidden, the outermost faults are all there are. -/
theorem faults_eq_outermostFaults {root : Node}
    (h : ∀ n ∈ outermostFaults root, hiddenFaults n = []) : faults root = outermostFaults root := by
  rw [faults_eq_flatMap_outermostFaults, List.flatMap_congr fun n hn => by rw [h n hn],
    List.flatMap_singleton']

theorem length_flatMap_cons (hidden : Node → List Node) (ns : List Node) :
    (ns.flatMap (fun n => n :: hidden n)).length = ns.length + (ns.flatMap hidden).length := by
  induction ns with
  | nil => rfl
  | cons n ns ih =>
    rw [List.flatMap_cons, List.flatMap_cons, List.length_append, List.length_append, ih]
    simp only [List.length_cons]
    omega

/-- There are as many outermost faults as faults exactly if no fault lies in another one. -/
theorem length_outermostFaults_eq_iff {root : Node} :
    (outermostFaults root).length = (faults root).length ↔ root.Unnested := by
  rw [Node.unnested_iff]
  constructor
  · intro hlength
    rw [faults_eq_flatMap_outermostFaults, length_flatMap_cons, Nat.left_eq_add,
      List.length_eq_zero_iff, List.flatMap_eq_nil_iff] at hlength
    rwa [faults_eq_outermostFaults hlength]
  · intro h
    rw [faults_eq_outermostFaults fun n hn => h n (mem_faults_of_mem_outermostFaults hn)]

/-! ### What is said about them -/

theorem faults_eq_nil_iff {root : Node} : faults root = [] ↔ outermostFaults root = [] := by
  rw [faults_eq_flatMap_outermostFaults, List.flatMap_eq_nil_iff, List.eq_nil_iff_forall_not_mem]
  simp

/-- The texts of the problems of a tree. -/
def complaints (bs : Octets) (root : Node) : List String :=
  (problems (.ofSource bs) root).map Problem.message

/-- A tree is complained about by its outermost faults, or as a whole if it is marked as erroneous
and has no fault. -/
theorem complaints_eq (bs : Octets) (root : Node) :
    complaints bs root =
      if faults root = [] then (if root.hasError then ["Syntax error"] else [])
      else (outermostFaults root).map (complaint bs) := by
  rw [complaints, problems_eq]
  rcases e : outermostFaults root with - | ⟨n, ns⟩
  · rw [if_pos (faults_eq_nil_iff.mpr e)]
    cases root.hasError <;> rfl
  · have hfault : faults root ≠ [] := by simp [faults_eq_nil_iff, e]
    have herror : root.hasError = true := by
      by_contra herror
      rw [Bool.not_eq_true] at herror
      rw [outermostFaults_eq, faultsWithin_eq_nil_of_hasError herror] at e
      cases e
    rw [if_neg hfault, if_pos herror, List.map_map]
    exact List.map_congr_left fun m _ => message_problemAt bs m

/-- The faults of a tree are its outermost ones, each with those that it hides, and a tree with
faults is complained about by the outermost ones alone.  So there is one complaint for every fault,
in source order, exactly if no fault lies in another one, a tree without faults that is marked as
erroneous apart. -/
theorem complaints_eq_iff (bs : Octets) (root : Node) :
    (complaints bs root = (faults root).map (complaint bs) ↔
      root.Unnested ∧ (faults root = [] → root.hasError = false)) ∧
    (complaints bs root =
      if faults root = [] then (if root.hasError then ["Syntax error"] else [])
      else (outermostFaults root).map (complaint bs)) ∧
    faults root = (outermostFaults root).flatMap (fun n => n :: hiddenFaults n) ∧
    ∀ n, n ∈ faults root ↔ Below root n ∧ (n.missing = true ∨ n.kind = "ERROR") := by
  refine ⟨?_, complaints_eq bs root, faults_eq_flatMap_outermostFaults root, fun n => ?_⟩
  · rw [complaints_eq]
    by_cases hnil : faults root = []
    · -- no fault, so none that lies in another one
      have hunnested : root.Unnested := by
        rw [Node.unnested_iff, hnil]
        simp
      rw [if_pos hnil, hnil]
      cases root.hasError <;> simp [hunnested]
    · rw [if_neg hnil]
      simp only [hnil, false_imp_iff, and_true]
      constructor
      · intro heq
        rw [← length_outermostFaults_eq_iff]
        simpa using congrArg List.length heq
      · intro hunnested
        rw [faults_eq_outermostFaults fun n hn =>
          Node.unnested_iff.mp hunnested n (mem_faults_of_mem_outermostFaults hn)]
  · rw [mem_faults_iff, Node.isFault, Bool.or_eq_true, beq_iff_eq]

/-- The source `this is not valid java code`. -/
def sentence : Octets := encode "this is not valid java code".toList

/-- The tree of that source: three words of it are taken for a declaration without a semicolon, and
all of it fits nowhere. -/
def sentenceTree : Node :=
  let leaf (kind : String) (start stop : Nat) : Node :=
    ⟨kind, start, stop, none, true, false, false, []⟩
  let declaration : Node :=
    ⟨"local_variable_declaration", 8, 17, none, true, false, false,
      [leaf "type_identifier" 8 11, leaf "identifier" 12 17,
        ⟨";", 17, 17, none, false, true, false, []⟩]⟩
  ⟨"program", 0, 27, none, true, false, false,
    [⟨"ERROR", 0, 27, none, true, false, false,
      [leaf "this" 0 4, leaf "identifier" 5 7, declaration, leaf "type_identifier" 18 22,
        leaf "identifier" 23 27]⟩]⟩

/-- The missing semicolon lies in the text that fits nowhere, and nothing is said about it. -/
theorem not_forall_complaints_eq :
    ¬ ∀ (bs : Octets) (root : Node), root.hasError = true → faults root ≠ [] →
      complaints bs root = (faults root).map (complaint bs) := by
  intro h
  have heq := h sentence sentenceTree (by decide) (by decide)
  have hlength := congrArg List.length heq
  rw [complaints_eq, if_neg (by decide), List.length_map, List.length_map] at hlength
  exact absurd hlength (by decide)

end CodeOutline.Java
