/-
CodeOutline/Json/Printer.lean

JSON texts, written on one line and in ASCII.

Members and items are separated by a comma and a space, names and values by a colon and a space.
Characters beyond ASCII are escaped by their UTF-16 code units.
-/
import CodeOutline.Json
import CodeOutline.Text.Quoted

namespace CodeOutline.Json

/-- One UTF-16 code unit, escaped. -/
def unitEscape (n : Nat) : List Char := '\\' :: 'u' :: Text.hexDigits 4 n

/-- A character inside a JSON string. -/
def escapeChar (c : Char) : List Char :=
  if c = '"' then ['\\', '"']
  else if c = '\\' then ['\\', '\\']
  else if c = '\n' then ['\\', 'n']
  else if c = '\r' then ['\\', 'r']
  else if c = '\t' then ['\\', 't']
  else
    let n := c.toNat
    if n = 8 then ['\\', 'b']
    else if n = 12 then ['\\', 'f']
    else if 0x20 ≤ n && n < 0x7F then [c]
    else if n < 0x10000 then unitEscape n
    else
      let m := n - 0x10000
      unitEscape (0xD800 + m / 0x400) ++ unitEscape (0xDC00 + m % 0x400)

/-- A JSON string. -/
def renderText (s : String) : String := String.ofList ('"' :: s.toList.flatMap escapeChar ++ ['"'])

mutual

/-- The JSON text of a value. -/
def render : Json → String
  | .null => "null"
  | .bool true => "true"
  | .bool false => "false"
  | .int n => toString n
  | .decimal d => d.render
  | .str s => renderText s
  | .arr items => "[" ++ ", ".intercalate (renderItems items) ++ "]"
  | .obj members => "\x7b" ++ ", ".intercalate (renderMembers members) ++ "\x7d"

/-- The JSON texts of the items of an array. -/
def renderItems : List Json → List String
  | [] => []
  | j :: js => render j :: renderItems js

/-- The JSON texts of the members of an object. -/
def renderMembers : List (String × Json) → List String
  | [] => []
  | (name, j) :: ms => (renderText name ++ ": " ++ render j) :: renderMembers ms

end

end CodeOutline.Json
