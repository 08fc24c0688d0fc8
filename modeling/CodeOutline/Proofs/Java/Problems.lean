/-
CodeOutline/Proofs/Java/Problems.lean

Which problems a tree has.

A fault is a missing or an erroneous node.  The problems of a tree are looked for with a list of
trees still to be visited, where trees without an error are left out, and what a fault holds is left
out, too.  Since an error in a tree is one of every tree around it (`hasError_eq_false_iff`), nothing
is lost: the faults that are met are those in no other fault (`problemsFrom_eq`), which are the faults
without a fault among their ancestors (`outermostFaults_eq`).

The main statement gives the texts of the problems, and says when there are none
(`problems_of_faults`).
-/
import CodeOutline.Proofs.Java.Traversal
import CodeOutline.Proofs.Source.Offset

namespace CodeOutline.Java

open Text.Utf8

variable {t : LineIndex} {n : Node}

/-! ### Faults -/

/-- Whether a node is missing or erroneous. -/
def Node.isFault (n : Node) : Bool := n.missing || n.kind == "ERROR"

/-- A node that is a fault while none of its ancestors is one. -/
def outermost? (l : Located) : Option Node :=
  if l.node.isFault && l.ancestors.all (fun a => !a.isFault) then some l.node else none

/-- The faults of a tree without a fault among their ancestors, in source order. -/
def outermostFaults (root : Node) : List Node :=
  (Located.ofRoot root).preorder.filterMap outermost?

mutual

/-- The faults of a tree that lie in no other fault of it. -/
def faultsWithin : Node → List Node
  | ⟨kind, start, stop, field, named, missing, flagged, cs⟩ =>
    let n : Node := ⟨kind, start, stop, field, named, missing, flagged, cs⟩
    if n.isFault then [n] else faultsAmong cs

/-- The faults of some trees that lie in no other fault. -/
def faultsAmong : List Node → List Node
  | [] => []
  | n :: ns => faultsWithin n ++ faultsAmong ns

end

theorem faultsWithin_eq (n : Node) :
    faultsWithin n = if n.isFault then [n] else faultsAmong n.children := by
  obtain ⟨kind, start, stop, field, named, missing, flagged, cs⟩ := n
  rw [faultsWithin]

theorem faultsAmong_eq_flatMap (ns : List Node) : faultsAmong ns = ns.flatMap faultsWithin := by
  induction ns with
  | nil => rfl
  | cons n ns ih => rw [faultsAmong, ih, List.flatMap_cons]

theorem faultsAmong_append (a b : List Node) :
    faultsAmong (a ++ b) = faultsAmong a ++ faultsAmong b := by
  rw [faultsAmong_eq_flatMap, faultsAmong_eq_flatMap, faultsAmong_eq_flatMap, List.flatMap_append]

/-- A tree with a fault holds an outermost one. -/
theorem faultsWithin_eq_nil_iff : faultsWithin n = [] ↔ ∀ m, Below n m → m.isFault = false := by
  induction n using Node.childInduction with
  | parent n ih =>
    rw [faultsWithin_eq, faultsAmong_eq_flatMap, forall_below_iff]
    by_cases hfault : n.isFault = true
    · simp [hfault]
    · rw [if_neg hfault, List.flatMap_eq_nil_iff]
      simp only [hfault, true_and]
      exact forall₂_congr ih

/-! ### Faults by their ancestors -/

mutual

/-- Below a fault no other one is outermost. -/
theorem filterMap_outermost?_go (n : Node) (ancestors : List Node) (previous : Option Node) :
    (Located.preorder.go n ancestors previous).filterMap outermost?
      = if ancestors.all (fun a => !a.isFault) then faultsWithin n else [] := by
  match n with
  | ⟨kind, start, stop, field, named, missing, flagged, cs⟩ =>
    rw [Located.preorder.go, List.filterMap_cons, filterMap_outermost?_goAll cs _ none,
      List.all_cons, faultsWithin]
    by_cases hfault : Node.isFault ⟨kind, start, stop, field, named, missing, flagged, cs⟩ = true
    · by_cases hall : ancestors.all (fun a => !a.isFault) = true
      · simp [outermost?, hfault, hall]
      · simp [outermost?, hfault, hall]
    · simp [outermost?, hfault]

theorem filterMap_outermost?_goAll (cs : List Node) (ancestors : List Node)
    (previous : Option Node) :
    (Located.preorder.goAll cs ancestors previous).filterMap outermost?
      = if ancestors.all (fun a => !a.isFault) then faultsAmong cs else [] := by
  match cs with
  | [] => simp [Located.preorder.goAll, faultsAmong]
  | n :: ns =>
    rw [Located.preorder.goAll, List.filterMap_append, filterMap_outermost?_go n,
      filterMap_outermost?_goAll ns, faultsAmong]
    split <;> rfl

end

theorem outermostFaults_eq (root : Node) : outermostFaults root = faultsWithin root :=
  filterMap_outermost?_go root [] none

/-! ### Errors -/

theorem anyError_eq_false_iff {ns : List Node} :
    Node.anyError ns = false ↔ ∀ n ∈ ns, n.hasError = false := by
  induction ns with
  | nil => simp [Node.anyError]
  | cons n ns ih => rw [Node.anyError, Bool.or_eq_false_iff, ih, List.forall_mem_cons]

/-- A tree without an error holds no fault and no node that is marked. -/
theorem hasError_eq_false_iff :
    n.hasError = false ↔ ∀ m, Below n m → m.flagged = false ∧ m.isFault = false := by
  induction n using Node.childInduction with
  | parent n ih =>
    rw [forall_below_iff, ← forall₂_congr ih, ← anyError_eq_false_iff]
    obtain ⟨kind, start, stop, field, named, missing, flagged, cs⟩ := n
    simp only [Node.hasError, Node.isFault, Bool.or_eq_false_iff, and_assoc]

theorem faultsWithin_eq_nil_of_hasError (h : n.hasError = false) : faultsWithin n = [] :=
  faultsWithin_eq_nil_iff.mpr fun m hm => (hasError_eq_false_iff.mp h m hm).2

/-! ### Problems -/

/-- The problem that a fault is. -/
def problemAt (t : LineIndex) (n : Node) : Problem :=
  if n.missing then .missing n.kind (t.position n.start) else .misplaced (t.position n.start)

/-- The faults that are met are those in no other fault, tree by tree. -/
theorem problemsFrom_eq (t : LineIndex) (pending : List Node) :
    problemsFrom t pending = (faultsAmong pending).map (problemAt t) := by
  induction pending using problemsFrom.induct with
  | case1 => simp [problemsFrom, faultsAmong]
  | case2 n pending hmissing ih =>
    simp [problemsFrom, faultsAmong, faultsWithin_eq, Node.isFault, problemAt, hmissing, ih]
  | case3 n pending hmissing hkind ih =>
    simp [problemsFrom, faultsAmong, faultsWithin_eq, Node.isFault, problemAt, hmissing, hkind, ih]
  | case4 n pending hmissing hkind herror ih =>
    -- the children of the node take its place
    have hfault : ¬ n.isFault = true := by simp [Node.isFault, hmissing, hkind]
    rw [problemsFrom, if_neg hmissing, if_neg hkind, if_pos herror, ih, faultsAmong,
      faultsWithin_eq, if_neg hfault, faultsAmong_append]
  | case5 n pending hmissing hkind herror ih =>
    -- nothing is lost with a tree without an error
    rw [problemsFrom, if_neg hmissing, if_neg hkind, if_neg herror, ih, faultsAmong,
      faultsWithin_eq_nil_of_hasError (Bool.eq_false_iff.mpr herror), List.nil_append]

theorem problems_eq (t : LineIndex) (root : Node) :
    problems t root =
      if root.hasError then
        match outermostFaults root with
        | [] => [.unlocated]
        | ns => ns.map (problemAt t)
      else [] := by
  have hroot : faultsAmong [root] = outermostFaults root := by
    rw [outermostFaults_eq, faultsAmong, faultsAmong, List.append_nil]
  rw [problems, problemsFrom_eq, hroot]
  cases outermostFaults root <;> rfl

theorem problems_eq_nil_iff {root : Node} : problems t root = [] ↔ root.hasError = false := by
  rw [problems_eq]
  cases root.hasError with
  | false => simp
  | true => cases outermostFaults root <;> simp

/-- A parser is successful if there is no error in the tree that it gives. -/
theorem successful_parsed_iff {parser : Parser} {path : Option Path} {bs : Octets} :
    (parsed parser path bs).successful = true ↔ (parser path bs).hasError = false := by
  rw [Parsed.successful, Parsed.tree?, parsed, ← problems_eq_nil_iff (t := .ofSource bs)]
  cases problems (.ofSource bs) (parser path bs) <;> simp

/-! ### Texts of problems -/

/-- The complaint about a fault: a node that is missing, or a text that fits nowhere, on the line and
in the column where the fault begins. -/
def complaint (bs : Octets) (n : Node) : String :=
  let before := bs.take n.start
  let line := before.count 10 + 1
  let column := (decode (before.rtakeWhile (· != 10))).length + 1
  if n.missing then s!"Missing '{n.kind}' at line {line}, column {column}"
  else s!"Syntax error at line {line}, column {column}"

theorem message_problemAt (bs : Octets) (n : Node) :
    (problemAt (.ofSource bs) n).message = complaint bs n := by
  obtain ⟨p, start, hp, hline, hcolumn, -⟩ := LineIndex.exists_positionAt bs n.start
  have hposition : (LineIndex.ofSource bs).position n.start = p := Except.ok.inj hp
  rw [problemAt, complaint, hposition, ← hline, ← hcolumn]
  split <;> rfl

/-- A tree has no problems exactly if it has no error, and with such a tree the parser is
successful.  In any other tree each fault without a fault among its ancestors is complained about, in
source order, or the tree as a whole if it has no faults. -/
theorem problems_of_faults (bs : Octets) (root : Node) :
    (problems (.ofSource bs) root = [] ↔ root.hasError = false) ∧
    (problems (.ofSource bs) root).map Problem.message =
      (if root.hasError then
        match outermostFaults root with
        | [] => ["Syntax error"]
        | ns => ns.map (complaint bs)
      else []) ∧
    (outermostFaults root = [] ↔ ∀ m, Below root m → m.isFault = false) ∧
    ∀ (parser : Parser) (path : Option Path),
      (parsed parser path bs).successful = true ↔ (parser path bs).hasError = false := by
  refine ⟨problems_eq_nil_iff, ?_, ?_, fun _ _ => successful_parsed_iff⟩
  · rw [problems_eq]
    cases root.hasError with
    | false => rfl
    | true =>
      rcases e : outermostFaults root with - | ⟨n, ns⟩
      · rfl
      · simp only [if_true, List.map_map]
        exact List.map_congr_left fun n _ => message_problemAt bs n
  · rw [outermostFaults_eq]
    exact faultsWithin_eq_nil_iff

end CodeOutline.Java
