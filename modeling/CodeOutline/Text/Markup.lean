/-
CodeOutline/Text/Markup.lean

Text inside console markup.

Markup tags are written in square brackets, and a backslash in front of a bracket takes its
meaning away.  `escape` protects a piece of foreign text: it doubles the backslashes in front of
everything that would be read as a tag and adds one more.  `plain` is what is left of markup
without its tags.
-/

namespace CodeOutline.Text.Markup

/-! ### Tags -/

/-- The characters that can follow the opening bracket of a tag. -/
def opensTag (c : Char) : Bool :=
  (97 ≤ c.toNat && c.toNat ≤ 122) || c == '#' || c == '/' || c == '@'

/-- The number of characters up to a closing bracket and with it, if one comes before the next
opening one. -/
def closing? : List Char → Option Nat
  | [] => none
  | c :: cs =>
    if c = ']' then some 1 else if c = '[' then none else (closing? cs).map (· + 1)

/-- The length of the tag at the start of a text. -/
def tagLength? : List Char → Option Nat
  | '[' :: c :: cs => if opensTag c then (closing? cs).map (· + 2) else none
  | _ => none

theorem tagLength?_eq_none {c : Char} (h : c ≠ '[') (cs : List Char) :
    tagLength? (c :: cs) = none := by
  unfold tagLength?
  split
  · next e => exact absurd (List.cons.inj e).1 h
  · rfl

/-! ### Escaping -/

/-- Escapes a text whose first `inside` characters belong to a tag that is escaped already.  The
`held` backslashes before it are written together with what they stand before. -/
def escapeFrom (held inside : Nat) : List Char → List Char
  | [] => List.replicate held '\\'
  | c :: cs =>
    if 0 < inside then c :: escapeFrom 0 (inside - 1) cs
    else
      match tagLength? (c :: cs) with
      | some n => List.replicate (2 * held + 1) '\\' ++ c :: escapeFrom 0 (n - 1) cs
      | none =>
        if c = '\\' then escapeFrom (held + 1) 0 cs
        else List.replicate held '\\' ++ c :: escapeFrom 0 0 cs

/-- A text as markup that shows it.  A single backslash at the end is doubled, so that it cannot
take the meaning of a bracket that follows. -/
def escape (s : String) : String :=
  let out := escapeFrom 0 0 s.toList
  match out.reverse with
  | '\\' :: '\\' :: _ => String.ofList out
  | '\\' :: _ => String.ofList (out ++ ['\\'])
  | _ => String.ofList out

/-- A text without brackets and backslashes is escaped by itself. -/
theorem escapeFrom_eq_self {cs : List Char} (h : ∀ c ∈ cs, c ≠ '[' ∧ c ≠ '\\') :
    escapeFrom 0 0 cs = cs := by
  induction cs with
  | nil => rfl
  | cons c cs ih =>
    have hc := h c (by simp)
    have hcs := ih (fun d hd => h d (by simp [hd]))
    simp [escapeFrom, tagLength?_eq_none hc.1, hc.2, hcs]

/-! ### Markup without tags -/

/-- What is shown of markup whose first `inside` characters belong to a tag that was taken for
text, or not, as `isText` says.  Half of the `held` backslashes before a tag are shown, and the tag
itself only if their number is odd. -/
def plainFrom (held inside : Nat) (isText : Bool) : List Char → List Char
  | [] => List.replicate held '\\'
  | c :: cs =>
    if 0 < inside then (if isText then [c] else []) ++ plainFrom 0 (inside - 1) isText cs
    else
      match tagLength? (c :: cs) with
      | some n =>
        let isText := held % 2 == 1
        List.replicate (held / 2) '\\' ++ (if isText then [c] else []) ++
          plainFrom 0 (n - 1) isText cs
      | none =>
        if c = '\\' then plainFrom (held + 1) 0 false cs
        else List.replicate held '\\' ++ c :: plainFrom 0 0 false cs

/-- Markup as it is shown where there are no colors. -/
def plain (s : String) : String := String.ofList (plainFrom 0 0 false s.toList)

end CodeOutline.Text.Markup
