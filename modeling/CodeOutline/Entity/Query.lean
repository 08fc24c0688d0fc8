/-
CodeOutline/Entity/Query.lean

Questions to entities, by name and with arguments of any type.

Each type of entities answers questions of its own.  An answer is a truth value, a line with a
column, or some of the entities that the entity holds.
-/
import CodeOutline.Entity.Argument

namespace CodeOutline

/-- The answer to a question. -/
inductive Reply where
  | truth (b : Bool)
  | place (line column : Nat)
  | entities (es : List Entity)

/-- An answer in JSON. -/
def Reply.toJson : Reply → Except Unordered Json
  | .truth b => .ok (.bool b)
  | .place line column => .ok (.arr [.int line, .int column])
  | .entities es => do return .arr (← es.mapM (·.toJson true))

namespace Argument

/-- The position an argument is, which is compared by a sign.  The line of a draft of a position is
a setter and no number; anything else has no line. -/
def asPosition (sign : String) : Argument → Except ArgumentError Position
  | .entity (.position p) _ => .ok p
  | .draft .position _ => .error (.unordered sign "int" "method")
  | a => .error (.noSuchPart a.typeName "line")

/-- The scope an argument is.  The start of a draft of a scope is a setter and no position;
anything else has no start. -/
def asScope : Argument → Except ArgumentError Scope
  | .entity (.scope s) _ => .ok s
  | .draft .scope _ => .error (.noSuchPart "function" "is_before")
  | a => .error (.noSuchPart a.typeName "start")

/-- The definition or unit an argument is, which can be written without ids.  Anything else is
asked for its name and its kind.  Tags, words and some drafts have a name and no kind; the kind of
a draft of a definition is a setter, which has no code. -/
def asIdentified : Argument → Except ArgumentError Entity
  | .entity (.definition d) _ => .ok (.definition d)
  | .entity (.unit u) _ => .ok (.unit u)
  | .draft .definition _ => .error (.noSuchPart "function" "value")
  | .entity (.tag t) number => .error (.noSuchPart (entity (.tag t) number).typeName "kind")
  | .draft .tag number => .error (.noSuchPart (draft .tag number).typeName "kind")
  | .draft .unit number => .error (.noSuchPart (draft .unit number).typeName "kind")
  | .scalar (.word w) => .error (.noSuchPart w.setName "kind")
  | a => .error (.noSuchPart a.typeName "name")

end Argument

namespace Definition

/-- The references whose kind is what is asked for; there are none for what is no kind. -/
def referencesLike (d : Definition) (a : Argument) : List Reference :=
  match a.referenceKind? with
  | some k => d.referencesOf k
  | none => []

end Definition

namespace CodeUnit

/-- The definitions whose kind is what is asked for; there are none for what is no kind. -/
def definitionsLike (u : CodeUnit) (a : Argument) : List Definition :=
  match a.definitionKind? with
  | some k => u.definitionsOf k
  | none => []

end CodeUnit

namespace EntityType

/-- The questions that a type answers, with the names of their arguments. -/
def questions : EntityType → List (String × List String)
  | .position => [("is_before", ["other"]), ("is_after", ["other"]), ("to_zero_based", [])]
  | .scope => [("contains", ["other"])]
  | .documentation => [("tags_named", ["name"])]
  | .definition => [("references_of", ["kind"])]
  | .unit => [("definitions_of", ["kind"])]
  | .reference | .tag => []

/-- Whether a type answers a question. -/
def answers (t : EntityType) (question : String) : Bool :=
  t.questions.any (fun q => q.1 == question)

end EntityType

namespace Entity

/-- The error of a question that cannot be answered: there is none of that name, or it takes
another number of arguments. -/
def unanswered (e : Entity) (question : String) (given : Nat) : ArgumentError :=
  match Assoc.find? (· == ·) question e.type.questions with
  | none => .noSuchPart e.type.name question
  | some names => .ofCount (e.type.name ++ "." ++ question ++ "()") names given

/-- The answer to a question. -/
def ask (e : Entity) (question : String) (args : List Argument) : Except ArgumentError Reply :=
  match e, question, args with
  | .position p, "is_before", [a] => (a.asPosition "<").map (fun q => .truth (p.isBefore q))
  | .position p, "is_after", [a] => (a.asPosition ">").map (fun q => .truth (p.isAfter q))
  | .position p, "to_zero_based", [] => .ok (.place p.toZeroBased.1 p.toZeroBased.2)
  | .scope s, "contains", [a] => a.asScope.map (fun t => .truth (s.contains t))
  | .documentation d, "tags_named", [a] => .ok (.entities ((d.tagsNamed a.toValue).map .tag))
  | .definition d, "references_of", [a] => .ok (.entities ((d.referencesLike a).map .reference))
  | .unit u, "definitions_of", [a] => .ok (.entities ((u.definitionsLike a).map .definition))
  | e, question, args => .error (e.unanswered question args.length)

end Entity

end CodeOutline
