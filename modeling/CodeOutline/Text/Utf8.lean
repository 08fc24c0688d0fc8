/-
CodeOutline/Text/Utf8.lean

UTF-8, well formed or not.

A machine reads octets one by one.  Between characters it holds nothing; inside a character it
holds how many octets are owed, the bounds of the next one, and what it has read.  An octet that
cannot continue the character ends it as a broken piece, and is then read afresh.  So octets are
cut into pieces, each a character or the longest start of one, and every piece knows its width:
the widths of the pieces add up to the number of octets.

`decode` shows a broken piece as the replacement character; `decode?` stops at the first one and
says where it is and what is wrong with it.
-/

namespace CodeOutline.Text.Utf8

/-- Octets of a text or a file. -/
abbrev Octets := List UInt8

/-- What is wrong with a broken piece. -/
inductive Flaw where
  | invalidStart
  | invalidContinuation
  | unexpectedEnd
  deriving DecidableEq, Repr

/-- The wording of a flaw. -/
def Flaw.message : Flaw → String
  | .invalidStart => "invalid start byte"
  | .invalidContinuation => "invalid continuation byte"
  | .unexpectedEnd => "unexpected end of data"

/-- A stretch of octets that is read as one character. -/
structure Piece where
  width : Nat
  content : Except Flaw Char

/-- The character that stands for a broken piece. -/
def replacement : Char := Char.ofNat 0xFFFD

/-- The character a piece is read as. -/
def Piece.char (p : Piece) : Char :=
  match p.content with
  | .ok c => c
  | .error _ => replacement

/-- Where the machine stands between two octets. -/
inductive State where
  /-- Between characters. -/
  | start
  /-- Inside a character: octets owed, bounds of the next one, value and number of those read. -/
  | inside (owed low high value taken : Nat)
  deriving DecidableEq, Repr

/-- Reads the first octet of a character. -/
def first (b : Nat) : List Piece × State :=
  if b < 0x80 then ([⟨1, .ok (Char.ofNat b)⟩], .start)
  else if b < 0xC2 then ([⟨1, .error .invalidStart⟩], .start)
  else if b < 0xE0 then ([], .inside 1 0x80 0xBF (b - 0xC0) 1)
  else if b = 0xE0 then ([], .inside 2 0xA0 0xBF 0 1)
  else if b = 0xED then ([], .inside 2 0x80 0x9F 0xD 1)
  else if b < 0xF0 then ([], .inside 2 0x80 0xBF (b - 0xE0) 1)
  else if b = 0xF0 then ([], .inside 3 0x90 0xBF 0 1)
  else if b < 0xF4 then ([], .inside 3 0x80 0xBF (b - 0xF0) 1)
  else if b = 0xF4 then ([], .inside 3 0x80 0x8F 4 1)
  else ([⟨1, .error .invalidStart⟩], .start)

/-- Reads one octet. -/
def step (s : State) (b : Nat) : List Piece × State :=
  match s with
  | .start => first b
  | .inside owed low high value taken =>
    if low ≤ b && b ≤ high then
      let value := value * 64 + (b - 0x80)
      if owed ≤ 1 then ([⟨taken + 1, .ok (Char.ofNat value)⟩], .start)
      else ([], .inside (owed - 1) 0x80 0xBF value (taken + 1))
    else
      let next := first b
      (⟨taken, .error .invalidContinuation⟩ :: next.1, next.2)

/-- What is left when the octets end. -/
def flush : State → List Piece
  | .start => []
  | .inside _ _ _ _ taken => [⟨taken, .error .unexpectedEnd⟩]

/-- The pieces of the octets that follow a state. -/
def piecesFrom (s : State) : Octets → List Piece
  | [] => flush s
  | b :: bs => (step s b.toNat).1 ++ piecesFrom (step s b.toNat).2 bs

/-- The pieces of some octets, in order. -/
def pieces (bs : Octets) : List Piece := piecesFrom .start bs

/-- The text of some octets, broken pieces replaced. -/
def decode (bs : Octets) : List Char := (pieces bs).map Piece.char

@[simp] theorem decode_nil : decode [] = [] := rfl

/-- Octets already read inside a character. -/
def State.taken : State → Nat
  | .start => 0
  | .inside _ _ _ _ taken => taken

/-- The number of octets of some pieces. -/
def totalWidth : List Piece → Nat
  | [] => 0
  | p :: ps => p.width + totalWidth ps

theorem totalWidth_append (a b : List Piece) :
    totalWidth (a ++ b) = totalWidth a + totalWidth b := by
  induction a with
  | nil => simp [totalWidth]
  | cons p ps ih => simp [totalWidth, ih, Nat.add_assoc]

theorem totalWidth_first (b : Nat) : totalWidth (first b).1 + (first b).2.taken = 1 := by
  unfold first
  repeat' split
  all_goals simp [totalWidth, State.taken]

theorem totalWidth_step (s : State) (b : Nat) :
    totalWidth (step s b).1 + (step s b).2.taken = s.taken + 1 := by
  cases s with
  | start => simpa [step, State.taken] using totalWidth_first b
  | inside owed low high value taken =>
    have := totalWidth_first b
    simp only [step]
    split
    · split <;> simp [totalWidth, State.taken]
    · simp only [totalWidth, State.taken] at this ⊢
      omega

/-- Every octet belongs to exactly one piece. -/
theorem totalWidth_piecesFrom (s : State) (bs : Octets) :
    totalWidth (piecesFrom s bs) = s.taken + bs.length := by
  induction bs generalizing s with
  | nil => cases s <;> simp [piecesFrom, flush, totalWidth, State.taken]
  | cons b bs ih =>
    have := totalWidth_step s b.toNat
    simp only [piecesFrom, totalWidth_append, ih, List.length_cons]
    omega

/-- The first broken piece: how many octets stand before it, its width and its flaw. -/
def firstFlaw (before : Nat) : List Piece → Option (Nat × Nat × Flaw)
  | [] => none
  | p :: ps =>
    match p.content with
    | .ok _ => firstFlaw (before + p.width) ps
    | .error f => some (before, p.width, f)

/-- The text of well formed octets. -/
def decode? (bs : Octets) : Except (Nat × Nat × Flaw) (List Char) :=
  match firstFlaw 0 (pieces bs) with
  | some flaw => .error flaw
  | none => .ok (decode bs)

/-- The octets of a text. -/
def encode (cs : List Char) : Octets := cs.flatMap String.utf8EncodeChar

@[simp] theorem encode_nil : encode [] = [] := rfl

theorem encode_append (a b : List Char) : encode (a ++ b) = encode a ++ encode b := by
  simp [encode]

end CodeOutline.Text.Utf8
