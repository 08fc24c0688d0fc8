/-
CodeOutline/Python/Class.lean

Classes in their surroundings, and what their statements say about them.

`classesAt` finds the classes of a tree at any depth, every class before those in its body, and
remembers for each the class that it is written in, whatever functions and statements lie between.
-/
import CodeOutline.Python.Part

namespace CodeOutline.Python

/-! ### Finding classes -/

/-- A class with the name of the class around it. -/
structure LocatedClass where
  owner : Option String
  node : Node

mutual

/-- The classes at a node and below it.  Only in its body can a class hold others. -/
def classesAt (owner : Option String) : Node → List LocatedClass
  | ⟨role, kind, range, attributes, cs⟩ =>
    let n : Node := ⟨role, kind, range, attributes, cs⟩
    if kind = "ClassDef" then
      let c : LocatedClass := ⟨owner, n⟩
      c :: classesIn (fun r => r == "body") (n.text? "name") cs
    else classesIn (fun _ => true) owner cs

/-- The classes at those of some nodes that have a role to be looked at, and below them. -/
def classesIn (isOpen : String → Bool) (owner : Option String) : List Node → List LocatedClass
  | [] => []
  | n :: ns => (if isOpen n.role then classesAt owner n else []) ++ classesIn isOpen owner ns

end

/-! ### Kinds of classes -/

/-- The last segments of the names of a class's bases. -/
def baseNames (n : Node) : List String := (basesOf n).map (fun b => lastSegment b.1)

/-- The bases that make a class an enumeration. -/
def enumBases : List String := ["Enum", "IntEnum", "StrEnum", "Flag", "IntFlag"]

/-- The kind of definition that a class gives. -/
def classKind (n : Node) : DefinitionKind :=
  if (baseNames n).contains "Protocol" then .interface
  else if (baseNames n).any enumBases.contains then .enum
  else .type

/-- Whether a keyword sets the metaclass to the one of abstract classes. -/
def setsAbstractMetaclass (k : Node) : Bool :=
  k.text? "arg" == some "metaclass" && (k.child? "value").map lastName == some "ABCMeta"

/-- Whether one of some keywords sets the metaclass to the one of abstract classes. -/
def hasAbstractMetaclass : List Node → Except TreeDefect Bool
  | [] => .ok false
  | k :: ks =>
    if k.isGap then .error (.emptyPlace "arg")
    else if setsAbstractMetaclass k then .ok true
    else hasAbstractMetaclass ks

/-- Whether a function has to be overridden. -/
def isAbstractFunction (n : Node) : Bool := (decoratorNames n).contains "abstractmethod"

/-- Whether a class is abstract: by a base, by its metaclass or by a function of its body. -/
def isAbstractClass (n : Node) : Except TreeDefect Bool :=
  if (baseNames n).contains "ABC" then .ok true
  else
    (hasAbstractMetaclass (n.places "keywords")).map
      (· || n.body.any (fun s => s.isFunction && isAbstractFunction s))

/-- The constants of an enumeration: the public names that its body gives values to. -/
def enumConstants (n : Node) : Except Failure (List String) := do
  let valued := n.body.filter (fun s => s.isAssignment && hasValue s)
  let names ← ((valued.flatMap targetsOf).filter Node.isName).mapM (nameIn "id")
  return names.filter (fun name => !hasStart "_" name)

/-- The facts about a class. -/
def classFacts (n : Node) : Except Failure (List (Scalar × Value)) :=
  match classKind n with
  | .interface =>
    .ok [(.text "superInterfaces", .texts ((baseNames n).filter (· != "Protocol")))]
  | .enum => do return [(.text "constants", .texts (← enumConstants n))]
  | _ => do
    return [(.text "isAbstract", .bool (← sound (isAbstractClass n))),
      (.text "superclass", .textOrNull (baseNames n).head?),
      (.text "bases", .texts (baseNames n))]

/-! ### Functions in classes -/

/-- Whether a function sets or deletes a property that another function defines. -/
def isAccessor (n : Node) : Bool :=
  (decoratorNames n).any (fun d => d == "setter" || d == "deleter")

/-- Whether a function defines a property. -/
def isProperty (n : Node) : Bool :=
  (decoratorNames n).any (fun d => d == "property" || d == "cached_property")

end CodeOutline.Python
