/-
CodeOutline/Json/Reader.lean

Reading JSON texts.

The readers of values, items and members call one another, each call spending one unit of fuel;
a text of `n` characters never needs more than `2 * n + 2` nested calls, which is what `read?`
gives.  Of two members with one name the later counts.
-/
import CodeOutline.Json
import CodeOutline.Text.Hex

namespace CodeOutline.Json

/-- White space between the parts of a JSON text. -/
def skipSpace (cs : List Char) : List Char :=
  cs.dropWhile (fun c => c == ' ' || c == '\t' || c == '\n' || c == '\r')

/-- Four digits in base 16, and the rest. -/
def readUnit? : List Char → Option (Nat × List Char)
  | a :: b :: c :: d :: cs => do
    let a ← Text.hexValue? a
    let b ← Text.hexValue? b
    let c ← Text.hexValue? c
    let d ← Text.hexValue? d
    return (((a * 16 + b) * 16 + c) * 16 + d, cs)
  | _ => none

/-- A character escaped by one or two UTF-16 code units, the first of which is read. -/
def joinUnits (n : Nat) (cs : List Char) : Char × List Char :=
  if 0xD800 ≤ n && n < 0xDC00 then
    match cs with
    | '\\' :: 'u' :: rest =>
      match readUnit? rest with
      | some (m, rest) =>
        if 0xDC00 ≤ m && m < 0xE000 then
          (Char.ofNat (0x10000 + (n - 0xD800) * 0x400 + (m - 0xDC00)), rest)
        else (Char.ofNat 0xFFFD, cs)
      | none => (Char.ofNat 0xFFFD, cs)
    | _ => (Char.ofNat 0xFFFD, cs)
  else if 0xDC00 ≤ n && n < 0xE000 then (Char.ofNat 0xFFFD, cs)
  else (Char.ofNat n, cs)

/-- The character after a backslash, and the rest. -/
def readEscape? : List Char → Option (Char × List Char)
  | '"' :: cs => some ('"', cs)
  | '\\' :: cs => some ('\\', cs)
  | '/' :: cs => some ('/', cs)
  | 'b' :: cs => some (Char.ofNat 8, cs)
  | 'f' :: cs => some (Char.ofNat 12, cs)
  | 'n' :: cs => some ('\n', cs)
  | 'r' :: cs => some ('\r', cs)
  | 't' :: cs => some ('\t', cs)
  | 'u' :: cs => (readUnit? cs).map (fun (n, rest) => joinUnits n rest)
  | _ => none

/-- The rest of a string after its opening quote; `done` holds what is read, last first. -/
def readText? : (fuel : Nat) → (done : List Char) → List Char → Option (String × List Char)
  | 0, _, _ => none
  | _ + 1, _, [] => none
  | _ + 1, done, '"' :: cs => some (String.ofList done.reverse, cs)
  | fuel + 1, done, '\\' :: cs =>
    match readEscape? cs with
    | some (c, rest) => readText? fuel (c :: done) rest
    | none => none
  | fuel + 1, done, c :: cs => readText? fuel (c :: done) cs

/-- The number of some digits. -/
def ofDigits (ds : List Char) : Nat := ds.foldl (fun n c => n * 10 + (c.toNat - 48)) 0

/-- Digits at the start of a text, and the rest. -/
def readDigits (cs : List Char) : List Char × List Char := cs.span Char.isDigit

/-- An exponent at the start of a text. -/
def readExponent (cs : List Char) : Option Int × List Char :=
  let number (sign : Int) (rest : List Char) : Option Int × List Char :=
    match readDigits rest with
    | ([], _) => (none, cs)
    | (ds, rest) => (some (sign * ofDigits ds), rest)
  match cs with
  | c :: rest =>
    if c = 'e' || c = 'E' then
      match rest with
      | '-' :: rest => number (-1) rest
      | '+' :: rest => number 1 rest
      | rest => number 1 rest
    else (none, cs)
  | [] => (none, cs)

/-- A number without its sign. -/
def readNumber? (negative : Bool) (cs : List Char) : Option (Json × List Char) :=
  match readDigits cs with
  | ([], _) => none
  | (whole, rest) =>
    let (part, rest) := match rest with
      | '.' :: more =>
        match readDigits more with
        | ([], _) => ([], rest)
        | (ds, more) => (ds, more)
      | _ => ([], rest)
    let (exponent, rest) := readExponent rest
    if part.isEmpty && exponent.isNone then
      let n : Int := ofDigits whole
      some (.int (if negative then -n else n), rest)
    else
      some (.decimal ⟨negative, ofDigits (whole ++ part), exponent.getD 0 - part.length⟩, rest)

/-- The rest of a text after a word it starts with. -/
def dropWord? (word : String) (cs : List Char) : Option (List Char) :=
  if word.toList.isPrefixOf cs then some (cs.drop word.length) else none

mutual

/-- A value at the start of a text, and the rest. -/
def readValue? : (fuel : Nat) → List Char → Option (Json × List Char)
  | 0, _ => none
  | fuel + 1, cs =>
    match skipSpace cs with
    | '"' :: rest => (readText? (rest.length + 1) [] rest).map (fun (s, r) => (.str s, r))
    | '[' :: rest =>
      match skipSpace rest with
      | ']' :: rest => some (.arr [], rest)
      | rest => (readItems? fuel [] rest).map (fun (js, r) => (.arr js, r))
    | '{' :: rest =>
      match skipSpace rest with
      | '}' :: rest => some (.obj [], rest)
      | rest => (readMembers? fuel [] rest).map (fun (ms, r) => (.obj ms, r))
    | '-' :: rest => readNumber? true rest
    | rest =>
      match dropWord? "null" rest, dropWord? "true" rest, dropWord? "false" rest with
      | some r, _, _ => some (.null, r)
      | _, some r, _ => some (.bool true, r)
      | _, _, some r => some (.bool false, r)
      | _, _, _ => readNumber? false rest

/-- Items up to the closing bracket; `done` holds what is read, last first. -/
def readItems? : (fuel : Nat) → (done : List Json) → List Char → Option (List Json × List Char)
  | 0, _, _ => none
  | fuel + 1, done, cs =>
    match readValue? fuel cs with
    | none => none
    | some (j, rest) =>
      match skipSpace rest with
      | ',' :: rest => readItems? fuel (j :: done) rest
      | ']' :: rest => some ((j :: done).reverse, rest)
      | _ => none

/-- Members up to the closing brace. -/
def readMembers? : (fuel : Nat) → (done : List (String × Json)) → List Char →
    Option (List (String × Json) × List Char)
  | 0, _, _ => none
  | fuel + 1, done, cs =>
    match skipSpace cs with
    | '"' :: rest =>
      match readText? (rest.length + 1) [] rest with
      | none => none
      | some (name, rest) =>
        match skipSpace rest with
        | ':' :: rest =>
          match readValue? fuel rest with
          | none => none
          | some (j, rest) =>
            let done := Assoc.insert (· == ·) name j done
            match skipSpace rest with
            | ',' :: rest => readMembers? fuel done rest
            | '}' :: rest => some (done, rest)
            | _ => none
        | _ => none
    | _ => none

end

/-- The value a JSON text stands for. -/
def read? (s : String) : Option Json :=
  let cs := s.toList
  match readValue? (2 * cs.length + 2) cs with
  | some (j, rest) => if (skipSpace rest).isEmpty then some j else none
  | none => none

end CodeOutline.Json
