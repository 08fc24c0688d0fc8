/-
CodeOutline/Java/Problem.lean

What a parser complains about.

The nodes that are missing or erroneous are described by their place, the outermost ones only.
Subtrees without any error are skipped.
-/
import CodeOutline.Java.Tree
import CodeOutline.Source.LineIndex

namespace CodeOutline.Java

/-- A complaint of the parser. -/
inductive Problem where
  /-- The source lacks a node. -/
  | missing (kind : String) (position : Position)
  /-- The source has something that fits nowhere. -/
  | misplaced (position : Position)
  /-- The tree is marked as erroneous, but no node in it. -/
  | unlocated
  deriving DecidableEq, Repr

/-- The wording of a problem. -/
def Problem.message : Problem → String
  | .missing kind p => s!"Missing '{kind}' at line {p.line}, column {p.column}"
  | .misplaced p => s!"Syntax error at line {p.line}, column {p.column}"
  | .unlocated => "Syntax error"

/-- The problems of the trees still to be visited, in source order. -/
def problemsFrom (t : LineIndex) : List Node → List Problem
  | [] => []
  | n :: pending =>
    if n.missing then .missing n.kind (t.position n.start) :: problemsFrom t pending
    else if n.kind = "ERROR" then .misplaced (t.position n.start) :: problemsFrom t pending
    else if n.hasError then problemsFrom t (n.children ++ pending)
    else problemsFrom t pending
termination_by pending => Node.sizes pending
decreasing_by
  all_goals simp only [Node.sizes, Node.sizes_append, Node.size_eq]
  all_goals omega

/-- The problems of a tree. -/
def problems (t : LineIndex) (root : Node) : List Problem :=
  if root.hasError then
    match problemsFrom t [root] with
    | [] => [.unlocated]
    | ps => ps
  else []

end CodeOutline.Java
