/-
CodeOutline/Decimal.lean

Decimal numbers: a sign, digits, and a power of ten.

They stand for the numbers with a point or an exponent of a JSON text, which are kept exactly as
they are written.  `normalize` takes trailing zeros off, so each number has one form apart from
the sign of zero, and `render` writes that form: with a point for powers from 10^-4 to 10^15,
with an exponent otherwise.

What such a number is worth is another matter: `toBinary` gives the nearest number of 53 binary
digits, which has a finite decimal form too.
-/

namespace CodeOutline

/-- The number `±digits · 10^exponent`. -/
structure Decimal where
  negative : Bool
  digits : Nat
  exponent : Int
  deriving DecidableEq, Repr, Inhabited

namespace Decimal

/-- An integer as a decimal number. -/
def ofInt (n : Int) : Decimal := ⟨n < 0, n.natAbs, 0⟩

/-- The number as a multiple of `10^e`, for an `e` not above the exponent. -/
def scaled (d : Decimal) (e : Int) : Int :=
  let n : Int := (d.digits * Nat.pow 10 (d.exponent - e).toNat : Nat)
  if d.negative then -n else n

/-- Whether two decimals are one number. -/
def same (a b : Decimal) : Bool :=
  let e := min a.exponent b.exponent
  a.scaled e == b.scaled e

/-- Whether a number is less than another. -/
def less (a b : Decimal) : Bool :=
  let e := min a.exponent b.exponent
  decide (a.scaled e < b.scaled e)

theorem same_refl (a : Decimal) : a.same a = true := by simp [same]

theorem same_comm (a b : Decimal) : a.same b = b.same a := by
  simp only [same, Int.min_comm b.exponent a.exponent]
  exact BEq.comm

/-! ### Binary digits -/

/-- A quotient rounded to the nearest number; of two that are equally near, the even one. -/
def roundDiv (n d : Nat) : Nat :=
  let q := n / d
  let r := 2 * (n % d)
  if r < d then q
  else if d < r then q + 1
  else q + q % 2

/-- The power of two by which `n / d` is divided to have 53 binary digits before the point, or
fewer where the power would be below the least one. -/
def binaryExponent (n d : Nat) : Int :=
  let e : Int := (n.log2 : Int) - d.log2 - 53
  let whole := n * Nat.pow 2 (-e).toNat / (d * Nat.pow 2 e.toNat)
  max (if Nat.pow 2 53 ≤ whole then e + 1 else e) (-1074)

/-- The nearest number of 53 binary digits, whose last one stands for 2^-1074 or more. -/
def toBinary (d : Decimal) : Decimal :=
  if d.digits = 0 then d
  else
    let n := d.digits * Nat.pow 10 d.exponent.toNat
    let m := Nat.pow 10 (-d.exponent).toNat
    let e := binaryExponent n m
    let k := roundDiv (n * Nat.pow 2 (-e).toNat) (m * Nat.pow 2 e.toNat)
    -- 2^e is 5^(-e) · 10^e for a negative e
    ⟨d.negative, k * Nat.pow 2 e.toNat * Nat.pow 5 (-e).toNat, min e 0⟩

/-! ### Text -/

/-- The number with at most `fuel` trailing zeros moved into the exponent. -/
def dropZeros : (fuel digits : Nat) → Int → Nat × Int
  | 0, n, e => (n, e)
  | fuel + 1, n, e => if n % 10 = 0 then dropZeros fuel (n / 10) (e + 1) else (n, e)

/-- The number without trailing zeros. -/
def normalize (d : Decimal) : Decimal :=
  if d.digits = 0 then ⟨d.negative, 0, 0⟩
  else
    let (n, e) := dropZeros d.digits.log2 d.digits d.exponent
    ⟨d.negative, n, e⟩

/-- An exponent with its sign and at least two digits. -/
def exponentText (e : Int) : String :=
  let n := toString e.natAbs
  (if e < 0 then "-" else "+") ++ (if n.length < 2 then "0" ++ n else n)

/-- Digits with a point after the first `point` of them, zeros filled in on either side. -/
def positional (ds : List Char) (point : Int) : List Char :=
  if point ≤ 0 then '0' :: '.' :: List.replicate (-point).toNat '0' ++ ds
  else
    let p := point.toNat
    let whole := ds.take p ++ List.replicate (p - ds.length) '0'
    match ds.drop p with
    | [] => whole ++ ['.', '0']
    | part => whole ++ '.' :: part

/-- The text of a number. -/
def render (d : Decimal) : String :=
  let d := d.normalize
  let ds := (toString d.digits).toList
  let point : Int := ds.length + d.exponent
  let body : String :=
    if d.digits = 0 then "0.0"
    else if -4 < point && point ≤ 16 then String.ofList (positional ds point)
    else
      let mantissa := match ds with
        | [] => []
        | [c] => [c]
        | c :: cs => c :: '.' :: cs
      String.ofList mantissa ++ "e" ++ exponentText (point - 1)
  if d.negative then "-" ++ body else body

end Decimal

end CodeOutline
