/-
CodeOutline/LogLevel.lean

Levels of logging, chosen by name.

A name is taken in any letter case.  Case folding goes beyond ASCII in two places only: the
dotless i and the long s have the capitals `I` and `S`.
-/

namespace CodeOutline

/-- How grave a message must be to be logged. -/
inductive LogLevel where
  | unset
  | debug
  | info
  | warning
  | error
  | critical
  deriving DecidableEq, Repr

namespace LogLevel

/-- The rank of a level: the graver, the higher. -/
def rank : LogLevel → Nat
  | .unset => 0
  | .debug => 10
  | .info => 20
  | .warning => 30
  | .error => 40
  | .critical => 50

/-- The capital of a letter that can occur in the name of a level. -/
def capital (c : Char) : Char :=
  if c.toNat = 0x131 then 'I' else if c.toNat = 0x17F then 'S' else c.toUpper

/-- The level with a name; two of them have two names. -/
def ofName? (name : String) : Option LogLevel :=
  match String.ofList (name.toList.map capital) with
  | "NOTSET" => some .unset
  | "DEBUG" => some .debug
  | "INFO" => some .info
  | "WARNING" => some .warning
  | "WARN" => some .warning
  | "ERROR" => some .error
  | "CRITICAL" => some .critical
  | "FATAL" => some .critical
  | _ => none

/-- The complaint about a name of no level. -/
def unknownMessage (name : String) : String := s!"Unknown log level: {name}"

end LogLevel

end CodeOutline
