/-
CodeOutline/Python/Annotation.lean

Annotations as text.

An expression is written at a level that the expression around it sets, or at the level of a test
where none is set; it is put in round brackets when that is above its own level.  The children of
a node are written first, each as a function of its setting, so the text of a node is put together
from those of its children.

A text comes in pieces.  A tree may lack a word, which leaves a hole among them, or a whole
expression, without which there is no text.
-/
import CodeOutline.Failure
import CodeOutline.Python.Tree

namespace CodeOutline.Python.Annotation

/-! ### Levels -/

/-- How tightly an expression holds together. -/
abbrev Level := Nat

namespace Level

def namedExpr : Level := 1
def tuple : Level := 2
def yield : Level := 3
def test : Level := 4
def or : Level := 5
def and : Level := 6
def not : Level := 7
def comparison : Level := 8
def bitOr : Level := 9
def bitXor : Level := 10
def bitAnd : Level := 11
def shift : Level := 12
def sum : Level := 13
def term : Level := 14
def factor : Level := 15
def power : Level := 16
def await : Level := 17
def atom : Level := 18

/-- The level above another one; nothing is above an atom. -/
def next (l : Level) : Level := min (l + 1) atom

end Level

/-- What the expression around sets for an expression. -/
inductive Setting where
  | unset
  | level (l : Level)
  /-- A tuple between brackets, which needs none of its own. -/
  | bracketed

/-- The level at which an expression is written. -/
def Setting.value : Setting → Level
  | .level l => l
  | _ => Level.test

/-! ### Texts in pieces -/

/-- The pieces of a text, some of which may be missing, or what is wrong with the tree. -/
abbrev Wording := Except TreeDefect (List (Option String))

namespace Wording

/-- A word of the tree, which may be missing. -/
def word (w : Option String) : Wording := .ok [w]

/-- A single piece. -/
def piece (s : String) : Wording := word (some s)

/-- Wordings one after the other. -/
def concat (ws : List Wording) : Wording := (ws.mapM id).map List.flatten

/-- Wordings with a piece between them. -/
def separate (s : String) (ws : List Wording) : Wording := concat (ws.intersperse (piece s))

/-- Wordings with commas between them. -/
def commas (ws : List Wording) : Wording := separate ", " ws

/-- A wording between two pieces. -/
def between (start stop : String) (w : Wording) : Wording := concat [piece start, w, piece stop]

/-- Round brackets around what is written above its own level. -/
def enclose (own : Level) (setting : Setting) (w : Wording) : Wording :=
  if own < setting.value then between "(" ")" w else w

/-- The text that the pieces make. -/
def text (w : Wording) : Except TreeDefect String := do
  let pieces ← w
  match pieces.findIdx? Option.isNone with
  | some index => .error (.noWord index)
  | none => .ok (String.join (pieces.filterMap id))

end Wording

/-! ### Operators -/

/-- The sign and the level of an operator with two operands. -/
def binary? (kind : String) : Option (String × Level) :=
  match kind with
  | "Add" => some ("+", Level.sum)
  | "Sub" => some ("-", Level.sum)
  | "Mult" => some ("*", Level.term)
  | "MatMult" => some ("@", Level.term)
  | "Div" => some ("/", Level.term)
  | "Mod" => some ("%", Level.term)
  | "FloorDiv" => some ("//", Level.term)
  | "LShift" => some ("<<", Level.shift)
  | "RShift" => some (">>", Level.shift)
  | "BitOr" => some ("|", Level.bitOr)
  | "BitXor" => some ("^", Level.bitXor)
  | "BitAnd" => some ("&", Level.bitAnd)
  | "Pow" => some ("**", Level.power)
  | _ => none

/-- The pieces of the sign and the level of an operator with one operand. -/
def unary? (kind : String) : Option (List String × Level) :=
  match kind with
  | "Not" => some (["not", " "], Level.not)
  | "UAdd" => some (["+"], Level.factor)
  | "USub" => some (["-"], Level.factor)
  | "Invert" => some (["~"], Level.factor)
  | _ => none

/-- The word and the level of an operator with any number of operands. -/
def logical? (kind : String) : Option (String × Level) :=
  match kind with
  | "And" => some ("and", Level.and)
  | "Or" => some ("or", Level.or)
  | _ => none

/-- The sign of a comparison. -/
def comparison? (kind : String) : Option String :=
  match kind with
  | "Eq" => some "=="
  | "NotEq" => some "!="
  | "Lt" => some "<"
  | "LtE" => some "<="
  | "Gt" => some ">"
  | "GtE" => some ">="
  | "Is" => some "is"
  | "IsNot" => some "is not"
  | "In" => some "in"
  | "NotIn" => some "not in"
  | _ => none

/-! ### Literals -/

/-- A number in which infinity is written as a number too large to be held, and what is no number
as the difference of two such. -/
def finite : List Char → List Char
  | 'i' :: 'n' :: 'f' :: cs => "1e309".toList ++ finite cs
  | 'n' :: 'a' :: 'n' :: cs => "(1e309-1e309)".toList ++ finite cs
  | c :: cs => c :: finite cs
  | [] => []

/-- A literal as text. -/
def literalText : Literal → String
  | .text s => Text.quoted s
  | .octets bs => Text.quotedOctets bs
  | .int digits => digits
  | .float digits => String.ofList (finite digits.toList)
  | .imaginary digits => String.ofList (finite digits.toList)
  | .bool b => if b then "True" else "False"
  | .none => "None"
  | .ellipsis => "..."

/-- Whether a node is an integer or a truth value, after which a dot needs a space. -/
def endsInDigit (n : Node) : Bool :=
  match n.attribute? "value" with
  | some (.literal (.int _)) => true
  | some (.literal (.bool _)) => true
  | _ => false

/-! ### Nodes -/

/-- A node and its wording in every setting. -/
structure Written where
  node : Node
  write : Setting → Wording

namespace Written

/-- The wording of a node at a level. -/
def atLevel (w : Written) (l : Level) : Wording := w.write (.level l)

/-- The wording of a node for which nothing is set. -/
def plain (w : Written) : Wording := w.write .unset

/-- The kind that a node has as an operator. -/
def operatorKind (w : Written) : String :=
  if w.node.isGap then TreeDefect.emptyKind else w.node.kind

end Written

/-- An expression that is missing. -/
def missing : Wording := .error (.emptyPlace "_fields")

/-- The children with a role, empty places included. -/
def inRole (role : String) (ws : List Written) : List Written :=
  ws.filter (fun w => w.node.role == role)

/-- The wording of the first child with a role, in a setting. -/
def firstIn (role : String) (ws : List Written) (setting : Setting) : Wording :=
  match (inRole role ws).head? with
  | none => missing
  | some w => w.write setting

/-- Whether there is a child with a role. -/
def has (role : String) (ws : List Written) : Bool := !(inRole role ws).isEmpty

/-- The kind of the operator; an empty place is of a kind of its own. -/
def operatorOf (ws : List Written) : String :=
  ((inRole "op" ws).head?.map Written.operatorKind).getD TreeDefect.emptyKind

/-- A child after a piece, if there is one. -/
def after (s role : String) (ws : List Written) (setting : Setting) : List Wording :=
  if has role ws then [.piece s, firstIn role ws setting] else []

/-- The elements of a tuple: a single one has a comma after it. -/
def tupleItems (items : List Written) : Wording :=
  match items with
  | [w] => .concat [w.plain, .piece ","]
  | ws => .commas (ws.map Written.plain)

/-- The operands of `and` or `or`, each a level above the one before it. -/
def risingOperands (l : Level) : List Written → List Wording
  | [] => []
  | w :: ws => w.atLevel l.next :: risingOperands l.next ws

/-- A comparison after its first operand. -/
def comparisonTail : List Written → List Written → List Wording
  | o :: os, w :: ws =>
    (match comparison? o.operatorKind with
      | some sign => .piece (" " ++ sign ++ " ")
      | none => .error (.noOperator o.operatorKind)) ::
    w.atLevel Level.comparison.next :: comparisonTail os ws
  | _, _ => []

/-- The entries of a dictionary; one without a key is spread. -/
def entries : List Written → List Written → List Wording
  | k :: ks, v :: vs =>
    (if k.node.isGap then .concat [.piece "**", v.atLevel Level.bitOr]
      else .concat [k.plain, .piece ": ", v.plain]) :: entries ks vs
  | _, _ => []

/-- Parameters with their defaults, which may be empty places. -/
def withDefaults : List Written → List Written → List Wording
  | p :: ps, d :: ds =>
    (if d.node.isGap then p.plain else .concat [p.plain, .piece "=", d.plain]) :: withDefaults ps ds
  | _, _ => []

/-- Positional parameters, so many of which cannot be named in a call. -/
def positional (unnamed : Nat) (ps : List Wording) : List Wording :=
  match (ps.take unnamed).reverse with
  | [] => ps
  | last :: before => before.reverse ++ [.concat [last, .piece ", /"]] ++ ps.drop unnamed

/-- The parameter that takes all other named arguments. -/
def spreadParameter (w : Written) : Wording :=
  match w.node.text? "arg" with
  | none => .error .noSpreadName
  | some name => w.plain.map (fun pieces => some ("**" ++ name) :: pieces.drop 1)

/-- The parameters of an anonymous function. -/
def parameters (ws : List Written) : Wording :=
  let unnamed := inRole "posonlyargs" ws
  let all := unnamed ++ inRole "args" ws
  let defaults := inRole "defaults" ws
  let noDefault : Written := ⟨.gap "defaults", fun _ => missing⟩
  let first := withDefaults all
    (List.replicate (all.length - defaults.length) noDefault ++ defaults)
  let named := inRole "kwonlyargs" ws
  let star : List Wording :=
    if has "vararg" ws then [.concat [.piece "*", firstIn "vararg" ws .unset]]
    else if named.isEmpty then [] else [.piece "*"]
  .commas (positional unnamed.length first ++ star ++
    withDefaults named (inRole "kw_defaults" ws) ++ (inRole "kwarg" ws).map spreadParameter)

/-- The clauses of a comprehension. -/
def clauses (ws : List Written) : Wording := .concat ((inRole "generators" ws).map Written.plain)

/-- A constant, which has no value where it says nothing. -/
def constant (n : Node) : Wording :=
  let marked (s : String) : Wording :=
    .concat ((if n.text "kind" == "u" then [.piece "u"] else []) ++ [.piece s])
  match n.attribute? "value" with
  | some (.literal .ellipsis) => .piece (literalText .ellipsis)
  | some (.literal l) => marked (literalText l)
  | _ => marked (literalText .none)

/-- The wording of a node in a setting, from those of its children. -/
def nodeWording (n : Node) (ws : List Written) (setting : Setting) : Wording :=
  let first (role : String) (l : Level) : Wording := firstIn role ws (.level l)
  let plain (role : String) : Wording := firstIn role ws .unset
  match n.kind with
  | "" => missing
  | "Name" => .word (n.text? "id")
  | "Constant" => constant n
  | "Attribute" =>
    let space := ((inRole "value" ws).head?.map (fun w => endsInDigit w.node)).getD false
    .concat ([first "value" Level.atom] ++ (if space then [.piece " "] else []) ++
      [.piece ".", .word (n.text? "attr")])
  | "Subscript" =>
    .concat [first "value" Level.atom, .between "[" "]" (firstIn "slice" ws .bracketed)]
  | "Slice" =>
    .concat ((if has "lower" ws then [plain "lower"] else []) ++ after ":" "upper" ws .unset ++
      (if has "upper" ws then [] else [.piece ":"]) ++ after ":" "step" ws .unset)
  | "Call" =>
    .concat [first "func" Level.atom,
      .between "(" ")" (.commas ((inRole "args" ws ++ inRole "keywords" ws).map Written.plain))]
  | "keyword" =>
    .concat ((match n.text? "arg" with
      | some name => [.piece name, .piece "="]
      | none => [.piece "**"]) ++ [plain "value"])
  | "Starred" => .concat [.piece "*", first "value" Level.bitOr]
  | "Tuple" =>
    let elts := inRole "elts" ws
    match setting with
    | .bracketed => if elts.isEmpty then .between "(" ")" (.ok []) else tupleItems elts
    | _ =>
      if elts.isEmpty || Level.tuple < setting.value then .between "(" ")" (tupleItems elts)
      else tupleItems elts
  | "List" => .between "[" "]" (.commas ((inRole "elts" ws).map Written.plain))
  | "Set" =>
    match inRole "elts" ws with
    | [] => .piece "\x7b*()\x7d"
    | elts => .between "\x7b" "\x7d" (.commas (elts.map Written.plain))
  | "Dict" =>
    .between "\x7b" "\x7d" (.commas (entries (inRole "keys" ws) (inRole "values" ws)))
  | "UnaryOp" =>
    match unary? (operatorOf ws) with
    | some (sign, l) =>
      .enclose l setting (.concat (sign.map Wording.piece ++ [first "operand" l]))
    | none => .error (.noOperator (operatorOf ws))
  | "BinOp" =>
    match binary? (operatorOf ws) with
    | some (sign, l) =>
      let (left, right) := if operatorOf ws == "Pow" then (l.next, l) else (l, l.next)
      .enclose l setting
        (.concat [first "left" left, .piece (" " ++ sign ++ " "), first "right" right])
    | none => .error (.noOperator (operatorOf ws))
  | "BoolOp" =>
    match logical? (operatorOf ws) with
    | some (sign, l) =>
      .enclose l setting (.separate (" " ++ sign ++ " ") (risingOperands l (inRole "values" ws)))
    | none => .error (.noOperator (operatorOf ws))
  | "Compare" =>
    .enclose Level.comparison setting
      (.concat (first "left" Level.comparison.next ::
        comparisonTail (inRole "ops" ws) (inRole "comparators" ws)))
  | "IfExp" =>
    .enclose Level.test setting
      (.concat [first "body" Level.or, .piece " if ", first "test" Level.or, .piece " else ",
        first "orelse" Level.test])
  | "Lambda" =>
    let args := (plain "args").map (fun ps => if ps.isEmpty then [] else some " " :: ps)
    .enclose Level.test setting
      (.concat [.piece "lambda", args, .piece ": ", first "body" Level.test])
  | "NamedExpr" =>
    .enclose Level.namedExpr setting
      (.concat [first "target" Level.atom, .piece " := ", first "value" Level.atom])
  | "Await" =>
    .enclose Level.await setting
      (.concat (.piece "await" :: after " " "value" ws (.level Level.atom)))
  | "Yield" =>
    .enclose Level.yield setting
      (.concat (.piece "yield" :: after " " "value" ws (.level Level.atom)))
  | "YieldFrom" =>
    .enclose Level.yield setting
      (.concat [.piece "yield from ",
        if has "value" ws then first "value" Level.atom else .error .noSource])
  | "ListComp" => .between "[" "]" (.concat [plain "elt", clauses ws])
  | "SetComp" => .between "\x7b" "\x7d" (.concat [plain "elt", clauses ws])
  | "GeneratorExp" => .between "(" ")" (.concat [plain "elt", clauses ws])
  | "DictComp" =>
    .between "\x7b" "\x7d" (.concat [plain "key", .piece ": ", plain "value", clauses ws])
  | "comprehension" =>
    let start := if (n.number? "is_async").getD 0 = 0 then " for " else " async for "
    .concat ([.piece start, first "target" Level.tuple, .piece " in ", first "iter" Level.or] ++
      (inRole "ifs" ws).flatMap (fun w => [.piece " if ", w.atLevel Level.or]))
  | "arguments" => parameters ws
  | "arg" => .concat (.word (n.text? "arg") :: after ": " "annotation" ws .unset)
  | _ => .ok []

mutual

/-- A node with its wording in every setting. -/
def written : Node → Written
  | ⟨role, kind, range, attributes, cs⟩ =>
    let n : Node := ⟨role, kind, range, attributes, cs⟩
    ⟨n, nodeWording n (writtenAll cs)⟩

/-- Nodes with their wordings in every setting. -/
def writtenAll : List Node → List Written
  | [] => []
  | n :: ns => written n :: writtenAll ns

end

/-- The text of an annotation. -/
def render (n : Node) : Except TreeDefect String := (written n).plain.text

end CodeOutline.Python.Annotation
