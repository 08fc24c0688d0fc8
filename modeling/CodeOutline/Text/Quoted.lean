/-
CodeOutline/Text/Quoted.lean

Text in quotes, as messages show it.

Single quotes enclose the text, double quotes where it holds a single one and no double one.
The backslash, the quote in use, tab, line feed and carriage return get a backslash; every other
character that cannot be shown is written by its code in the shortest of three widths.
-/
import CodeOutline.Text.Category

namespace CodeOutline.Text

/-- The last `width` digits of a number in base 16. -/
def hexDigits : (width : Nat) → Nat → List Char
  | 0, _ => []
  | w + 1, n => hexDigits w (n / 16) ++ [Nat.digitChar (n % 16)]

/-- A character by its code. -/
def codeEscape (n : Nat) : List Char :=
  if n < 0x100 then '\\' :: 'x' :: hexDigits 2 n
  else if n < 0x10000 then '\\' :: 'u' :: hexDigits 4 n
  else '\\' :: 'U' :: hexDigits 8 n

/-- The quote for a text. -/
def quoteFor (cs : List Char) : Char :=
  if cs.contains '\'' && !cs.contains '"' then '"' else '\''

/-- One character inside quotes. -/
def quoteChar (quote c : Char) : List Char :=
  if c = '\\' || c = quote then ['\\', c]
  else if c = '\t' then ['\\', 't']
  else if c = '\n' then ['\\', 'n']
  else if c = '\r' then ['\\', 'r']
  else if isPrintable c then [c]
  else codeEscape c.toNat

/-- The text in quotes. -/
def quoted (s : String) : String :=
  let cs := s.toList
  let q := quoteFor cs
  String.ofList (q :: cs.flatMap (quoteChar q) ++ [q])

/-- One octet inside quotes: as its ASCII character, or by its code. -/
def quoteOctet (quote : Char) (b : UInt8) : List Char :=
  let c := Char.ofNat b.toNat
  if b.toNat < 0x7F then
    if c.toNat < 0x20 && c != '\t' && c != '\n' && c != '\r' then codeEscape b.toNat
    else quoteChar quote c
  else codeEscape b.toNat

/-- Octets in quotes, with a mark in front that tells them from text. -/
def quotedOctets (bs : List UInt8) : String :=
  let q := quoteFor (bs.map (fun b => Char.ofNat b.toNat))
  String.ofList ('b' :: q :: bs.flatMap (quoteOctet q) ++ [q])

end CodeOutline.Text
