/-
CodeOutline/Text/Encoding.lean

The encoding of a source file, as the file itself declares it.

A file is UTF-8 unless its first line, or the second one after a first line of blanks and
comments, is a comment that holds `coding:` or `coding=` and a name.  A byte order mark in front
allows UTF-8 only and is not part of the text.
-/
import CodeOutline.Text.Utf8

namespace CodeOutline.Text

open Utf8 (Octets)

/-- The encodings that can be read. -/
inductive Encoding where
  | utf8
  | latin1
  | ascii
  deriving DecidableEq, Repr

/-- Why a file cannot be read as text. -/
inductive DecodingError where
  /-- A line in which a declaration is looked for is not text. -/
  | declaration
  /-- No encoding has the declared name. -/
  | unknownEncoding (name : String)
  /-- A byte order mark stands before the declaration of another encoding. -/
  | markDisagrees
  /-- Octets from `first` on, `width` of them, stand for nothing. -/
  | utf8 (first width : Nat) (octet : UInt8) (flaw : Utf8.Flaw)
  | ascii (position : Nat) (octet : UInt8)
  deriving Repr

/-- An octet as messages show it. -/
def octetText (b : UInt8) : String :=
  String.ofList ['0', 'x', Nat.digitChar (b.toNat / 16), Nat.digitChar (b.toNat % 16)]

/-- The wording of a decoding error. -/
def DecodingError.message : DecodingError → String
  | .declaration => "invalid or missing encoding declaration"
  | .unknownEncoding name => s!"unknown encoding: {name}"
  | .markDisagrees => "encoding problem: utf-8"
  | .utf8 first width octet flaw =>
    if width = 1 then
      s!"'utf-8' codec can't decode byte {octetText octet} in position {first}: {flaw.message}"
    else
      s!"'utf-8' codec can't decode bytes in position {first}-{first + width - 1}: {flaw.message}"
  | .ascii position octet =>
    s!"'ascii' codec can't decode byte {octetText octet} in position {position}: " ++
      "ordinal not in range(128)"

/-! ### Names of encodings -/

/-- A declared name in lowercase with hyphens, as far as it is compared. -/
def comparable (name : List Char) : List Char :=
  (name.take 12).map (fun c => if c = '_' then '-' else c.toLower)

/-- Whether a name is `base` or goes on after it with a hyphen. -/
def isVariantOf (base name : List Char) : Bool :=
  name == base || (base ++ ['-']).isPrefixOf name

/-- The usual spelling of a declared name. -/
def normalName (name : List Char) : String :=
  let n := comparable name
  if isVariantOf "utf-8".toList n then "utf-8"
  else if ["latin-1", "iso-8859-1", "iso-latin-1"].any (fun b => isVariantOf b.toList n) then
    "iso-8859-1"
  else String.ofList name

/-- The encoding of a name in usual spelling. -/
def Encoding.ofName? (name : String) : Option Encoding :=
  let n := String.ofList (name.toList.map (fun c => if c = '-' then '_' else c.toLower))
  if ["utf_8", "utf8", "utf", "u8"].contains n then some .utf8
  else if ["iso_8859_1", "latin_1", "latin1", "latin", "l1", "iso8859_1", "cp819"].contains n then
    some .latin1
  else if ["ascii", "us_ascii", "us", "646"].contains n then some .ascii
  else none

/-! ### The declaration -/

/-- Blanks that can stand before a comment. -/
def isLineBlank (c : Char) : Bool := c == ' ' || c == '\t' || c.toNat == 12

/-- The characters of an encoding's name. -/
def isNameChar (c : Char) : Bool := c.isAlphanum || c == '_' || c == '-' || c == '.'

/-- The name declared right here. -/
def declarationAt? (cs : List Char) : Option (List Char) :=
  if "coding:".toList.isPrefixOf cs || "coding=".toList.isPrefixOf cs then
    let rest := (cs.drop 7).dropWhile (fun c => c == ' ' || c == '\t')
    match rest.takeWhile isNameChar with
    | [] => none
    | name => some name
  else none

/-- The first name declared in a comment. -/
def declarationIn? : List Char → Option (List Char)
  | [] => none
  | c :: cs =>
    match declarationAt? (c :: cs) with
    | some name => some name
    | none => declarationIn? cs

/-- The name declared in a line. -/
def declaration? (line : List Char) : Option (List Char) :=
  match line.dropWhile isLineBlank with
  | '#' :: comment => declarationIn? (comment.takeWhile (· != '\n'))
  | _ => none

/-- Whether a line holds nothing but blanks and a comment. -/
def isIdleLine (line : List Char) : Bool :=
  match line.dropWhile isLineBlank with
  | [] => true
  | c :: _ => c == '#' || c == '\r' || c == '\n'

/-- The encoding a line declares. -/
def lineEncoding (marked : Bool) (line : Octets) : Except DecodingError (Option Encoding) :=
  match Utf8.decode? line with
  | .error _ => .error .declaration
  | .ok cs =>
    match declaration? cs with
    | none => .ok none
    | some name =>
      let name := normalName name
      match Encoding.ofName? name with
      | none => .error (.unknownEncoding name)
      | some e => if marked && name != "utf-8" then .error .markDisagrees else .ok (some e)

/-- The octets up to the first line feed and with it, and the rest. -/
def splitFirstLine : Octets → Octets × Octets
  | [] => ([], [])
  | b :: bs =>
    if b = 10 then ([b], bs)
    else
      let (line, rest) := splitFirstLine bs
      (b :: line, rest)

/-- The octets after a byte order mark, and whether there was one. -/
def dropMark : Octets → Octets × Bool
  | 0xEF :: 0xBB :: 0xBF :: bs => (bs, true)
  | bs => (bs, false)

/-- The encoding of octets that follow a byte order mark or none. -/
def detectEncoding (marked : Bool) (bs : Octets) : Except DecodingError Encoding := do
  let (line, rest) := splitFirstLine bs
  match ← lineEncoding marked line with
  | some e => return e
  | none =>
    if isIdleLine (Utf8.decode line) then
      return (← lineEncoding marked (splitFirstLine rest).1).getD .utf8
    else return .utf8

/-! ### Decoding -/

/-- Reads ASCII octets, `before` of which are done. -/
def decodeAscii (before : Nat) : Octets → Except DecodingError (List Char)
  | [] => .ok []
  | b :: bs =>
    if b.toNat < 128 then (decodeAscii (before + 1) bs).map (Char.ofNat b.toNat :: ·)
    else .error (.ascii before b)

/-- The text of octets in an encoding. -/
def Encoding.decode (e : Encoding) (bs : Octets) : Except DecodingError (List Char) :=
  match e with
  | .utf8 =>
    match Utf8.decode? bs with
    | .ok cs => .ok cs
    | .error (first, width, flaw) => .error (.utf8 first width (bs.getD first 0) flaw)
  | .latin1 => .ok (bs.map (fun b => Char.ofNat b.toNat))
  | .ascii => decodeAscii 0 bs

/-- The text of a source file. -/
def decodeSource (bs : Octets) : Except DecodingError (List Char) := do
  let (bs, marked) := dropMark bs
  (← detectEncoding marked bs).decode bs

end CodeOutline.Text
