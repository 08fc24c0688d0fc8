/-
CodeOutline/CommandLine/Request.lean

What the arguments of the program ask for.

Options have long names after two hyphens and some a short one after one hyphen.  The value of a
long option is the next argument, or follows an equals sign; that of a short one follows directly
or is the next argument.  Short options without values can be put together.  Two hyphens alone end
the options, and one alone is no option.  Of two values the later counts.

The log level stands before the command, or comes from the environment.  No path may hold a null
character.  Two hyphens in front of the command let its place be taken by options; where these are
common ones and ask for help, there is help.
-/
import CodeOutline.LogLevel
import CodeOutline.Path

namespace CodeOutline.CommandLine

/-! ### Options -/

/-- The options there are. -/
inductive Flag where
  | help
  | json
  | logLevel
  | root
  deriving DecidableEq, Repr

namespace Flag

/-- The long name of an option. -/
def name : Flag → String
  | .help => "--help"
  | .json => "--json"
  | .logLevel => "--log-level"
  | .root => "--root"

/-- The short name of an option. -/
def letter? : Flag → Option Char
  | .json => some 'j'
  | .root => some 'r'
  | _ => none

/-- Whether an option has a value. -/
def takesValue : Flag → Bool
  | .logLevel => true
  | .root => true
  | _ => false

end Flag

/-- Options with their values, the empty text for one that takes none. -/
abbrev Settings := List (Flag × String)

/-- What one argument sets, and the option that takes the next argument as its value. -/
abbrev Reading := Settings × Option Flag

/-- Reads a long option. -/
def readLong? (admitted : List Flag) (arg : List Char) : Option Reading :=
  let name := String.ofList (arg.takeWhile (· != '='))
  match admitted.find? (fun f => f.name == name), arg.dropWhile (· != '=') with
  | none, _ => none
  | some f, [] => if f.takesValue then some ([], some f) else some ([(f, "")], none)
  | some f, _ :: value => if f.takesValue then some ([(f, String.ofList value)], none) else none

/-- Reads short options put together. -/
def readShort? (admitted : List Flag) : List Char → Option Reading
  | [] => some ([], none)
  | c :: cs =>
    match admitted.find? (fun f => f.letter? == some c) with
    | none => none
    | some f =>
      if f.takesValue then
        if cs.isEmpty then some ([], some f) else some ([(f, String.ofList cs)], none)
      else (readShort? admitted cs).map (fun (done, open?) => ((f, "") :: done, open?))

/-- Reads an argument; none if it is no option and `some none` if it is one that is not
admitted. -/
def readOption? (admitted : List Flag) (arg : String) : Option (Option Reading) :=
  match arg.toList with
  | '-' :: '-' :: cs => some (readLong? admitted ('-' :: '-' :: cs))
  | '-' :: c :: cs => some (readShort? admitted (c :: cs))
  | _ => none

/-- Arguments taken apart. -/
structure Scan where
  settings : Settings
  positional : List String

/-- Takes arguments apart; none if an option is not admitted or lacks its value.  Options after
the first argument that is none are left alone if `stops` says so. -/
def scan? (admitted : List Flag) (stops : Bool) : List String → Option Scan
  | [] => some ⟨[], []⟩
  | arg :: rest =>
    if arg == "--" then some ⟨[], rest⟩
    else
      match readOption? admitted arg with
      | none =>
        if stops then some ⟨[], arg :: rest⟩
        else (scan? admitted stops rest).map (fun s => { s with positional := arg :: s.positional })
      | some none => none
      | some (some (done, none)) =>
        (scan? admitted stops rest).map (fun s => { s with settings := done ++ s.settings })
      | some (some (done, some f)) =>
        match rest with
        | [] => none
        | value :: rest =>
          (scan? admitted stops rest).map
            (fun s => { s with settings := done ++ (f, value) :: s.settings })

/-- Behind two hyphens there are no options. -/
theorem scan?_hyphens {admitted : List Flag} {stops : Bool} (words : List String) :
    scan? admitted stops ("--" :: words) = some ⟨[], words⟩ := by
  rw [scan?, if_pos (by decide)]

namespace Scan

/-- Whether an option is given. -/
def has (s : Scan) (f : Flag) : Bool := s.settings.any (fun e => e.1 == f)

/-- The last value of an option. -/
def value? (s : Scan) (f : Flag) : Option String :=
  ((s.settings.filter (fun e => e.1 == f)).getLast?).map Prod.snd

end Scan

/-! ### Commands -/

/-- What can be asked for. -/
inductive Command where
  /-- The definitions of files. -/
  | analyze (paths : List Path) (json : Bool) (root : Option Path)
  /-- The documentation of a file. -/
  | docs (path : Path) (json : Bool)
  /-- The extensions of files that can be analyzed. -/
  | languages (json : Bool)
  deriving Repr

/-- The options of a command. -/
def commandFlags (name : String) : Option (List Flag) :=
  match name with
  | "analyze" => some [.json, .root, .help]
  | "docs" => some [.json, .help]
  | "languages" => some [.json, .help]
  | _ => none

/-- The command that a name and what follows it stand for. -/
def command? (name : String) (s : Scan) : Option Command :=
  match name, s.positional with
  | "analyze", [] => none
  | "analyze", paths =>
    some (.analyze (paths.map Path.ofString) (s.has .json) ((s.value? .root).map Path.ofString))
  | "docs", [path] => some (.docs (Path.ofString path) (s.has .json))
  | "languages", [] => some (.languages (s.has .json))
  | _, _ => none

/-- The paths that a command is given. -/
def Command.paths : Command → List Path
  | .analyze paths _ root => root.toList ++ paths
  | .docs path _ => [path]
  | .languages _ => []

/-- What the program is to do. -/
inductive Request where
  | run (level : LogLevel) (command : Command)
  /-- Tell how the program is used. -/
  | help
  /-- Nothing, since the arguments make no sense. -/
  | misuse
  deriving Repr

/-- The level of logging where none is given. -/
def defaultLevel : String := "WARNING"

/-- The name of the level of logging: an option before an environment variable that is not empty. -/
def levelName (s : Scan) (environment : Option String) : String :=
  match s.value? .logLevel, environment with
  | some name, _ => name
  | none, some "" => defaultLevel
  | none, some name => name
  | none, none => defaultLevel

/-- The options that stand before the command. -/
def commonFlags : List Flag := [.logLevel, .help]

/-- The request for a command with such options. -/
def commandRequest (level : LogLevel) (name : String) (admitted : List Flag) (rest : List String) :
    Request :=
  match scan? admitted false rest with
  | none => .misuse
  | some s =>
    if s.has .help then .help
    else
      match command? name s with
      | none => .misuse
      | some c => if c.paths.all Path.isNameable then .run level c else .misuse

/-- The request that words make which do not begin with the name of a command. -/
def strayRequest (words : List String) : Request :=
  match scan? commonFlags true words with
  | none => .misuse
  | some s => if s.has .help then .help else .misuse

/-- The request that words after the common options make, with the name of a level of logging. -/
def requestOf (level : String) (words : List String) : Request :=
  match words with
  | [] => .misuse
  | name :: rest =>
    match commandFlags name, LogLevel.ofName? level with
    | none, _ => strayRequest words
    | some _, none => .misuse
    | some admitted, some level => commandRequest level name admitted rest

/-- The request that arguments make; `environment` is the level of logging that is set outside. -/
def Request.ofArguments (environment : Option String) (arguments : List String) : Request :=
  match scan? commonFlags true arguments with
  | none => .misuse
  | some s => if s.has .help then .help else requestOf (levelName s environment) s.positional

end CodeOutline.CommandLine
