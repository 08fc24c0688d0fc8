/-
CodeOutline/Text/Blank.lean

Blank characters, trimming and words.

`isBlank` is the one notion of blank space of this library: trimming, the splitting into words and
every line format read later use it.  Words are the longest runs of characters that are not blank,
so splitting loses exactly the blanks.
-/

namespace CodeOutline.Text

/-! ### Blank characters -/

/-- White space: the controls from tab to carriage return and from U+001C to U+001F, the plain
space, and the spaces and separators of Unicode.  Zero width characters are not among them. -/
def isBlank (c : Char) : Bool :=
  let n := c.toNat
  (9 ≤ n && n ≤ 13) || (28 ≤ n && n ≤ 32) || n == 0x85 || n == 0xA0 || n == 0x1680 ||
    (0x2000 ≤ n && n ≤ 0x200A) || n == 0x2028 || n == 0x2029 || n == 0x202F || n == 0x205F ||
    n == 0x3000

/-- A text with no character that is not blank. -/
def allBlank (s : String) : Bool := s.toList.all isBlank

@[simp] theorem allBlank_empty : allBlank "" = true := rfl

/-! ### Trimming -/

/-- The text without the blanks in front. -/
def trimLeft (cs : List Char) : List Char := cs.dropWhile isBlank

/-- The text without the blanks at its end. -/
def trimRight (cs : List Char) : List Char := (cs.reverse.dropWhile isBlank).reverse

/-- The text without the blanks at both ends. -/
def trim (cs : List Char) : List Char := trimRight (trimLeft cs)

@[simp] theorem trimLeft_nil : trimLeft [] = [] := rfl

@[simp] theorem trimRight_nil : trimRight [] = [] := rfl

@[simp] theorem trim_nil : trim [] = [] := rfl

/-! ### Words -/

/-- Puts a character in front of the first word. -/
def joinFirst (c : Char) : List (List Char) → List (List Char)
  | [] => [[c]]
  | w :: ws => (c :: w) :: ws

/-- The words of a text, in order.  A character belongs to the word that begins right after it,
unless a blank or the end follows. -/
def words : List Char → List (List Char)
  | [] => []
  | c :: cs =>
    if isBlank c then words cs
    else
      match cs with
      | [] => [[c]]
      | d :: _ => if isBlank d then [c] :: words cs else joinFirst c (words cs)

@[simp] theorem words_nil : words [] = [] := rfl

theorem words_cons_blank {c : Char} (h : isBlank c = true) (cs : List Char) :
    words (c :: cs) = words cs := by
  cases cs <;> simp [words, h]

/-- The words with one space between two of them. -/
def singleSpaced (cs : List Char) : List Char := [' '].intercalate (words cs)

/-- The text without any blank. -/
def withoutBlanks (cs : List Char) : List Char := cs.filter (fun c => !isBlank c)

/-- The words of a text hold its characters that are not blank, in order. -/
theorem flatten_words (cs : List Char) : (words cs).flatten = withoutBlanks cs := by
  induction cs with
  | nil => rfl
  | cons c cs ih =>
    by_cases h : isBlank c = true
    · rw [words_cons_blank h, ih]
      simp [withoutBlanks, h]
    · cases cs with
      | nil => simp [words, h, withoutBlanks]
      | cons d ds =>
        have e : withoutBlanks (c :: d :: ds) = c :: withoutBlanks (d :: ds) := by
          simp [withoutBlanks, List.filter_cons, h]
        rw [e, ← ih, words]
        simp only [h, Bool.false_eq_true, if_false]
        split
        · simp
        · cases words (d :: ds) <;> simp [joinFirst]

/-! ### Joining -/

/-- Lines set one below the other, without the blanks at both ends of the whole. -/
def joinTrimmed (ls : List (List Char)) : List Char := trim (['\n'].intercalate ls)

end CodeOutline.Text
