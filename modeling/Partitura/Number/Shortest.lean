import Partitura.Number.Binary64

/-!
# The shortest decimal of a floating-point number

The fewest decimal digits that read back as the number and, of those, the ones nearest to it, a tie
going to the even last digit; and the form in which they are written: with a point and at least one
digit on either side of it while the number lies between `10 ^ (-4)` and `10 ^ 16`, with an exponent
of a sign and at least two digits otherwise.
-/

namespace Partitura.Number

/-- Decimal digits without trailing zeros, and the place of the point: `0.DIGITS * 10 ^ point`. -/
structure Decimal where
  digits : Nat
  point : Int
deriving DecidableEq, Repr

namespace Binary64

/-- The least `k` with `num / den < 10 ^ k`, searched upward for at most `fuel` steps. -/
def decimalPoint (num den : Nat) : Nat → Int → Int
  | 0, k => k
  | fuel + 1, k =>
    if num * Nat.pow 10 (-k).toNat < den * Nat.pow 10 k.toNat then k
    else decimalPoint num den fuel (k + 1)

/-- The multiple of `10 ^ (point - p)` that reads back as `x`, below or above the value `num / den`;
the nearer one if both do, and of two equally near the even one. -/
def withDigits? (x : Binary64) (num den : Nat) (point : Int) (p : Nat) : Option Nat :=
  let shift := (p : Int) - point
  let n := num * Nat.pow 10 shift.toNat
  let d := den * Nat.pow 10 (-shift).toNat
  let below := n / d
  let above := below + 1
  let reads (c : Nat) : Bool := ofDecimal false c (-shift) == x
  if reads below then
    if reads above && d < 2 * (n % d) + below % 2 then some above else some below
  else if reads above then some above
  else none

/-- The first number of digits, up to seventeen, at which something reads back. -/
def searchDigits (x : Binary64) (num den : Nat) (point : Int) : Nat → Nat → Nat × Nat
  | 0, p => ((withDigits? x num den point p).getD 0, p)
  | fuel + 1, p =>
    match withDigits? x num den point p with
    | some c => (c, p)
    | none => searchDigits x num den point fuel (p + 1)

/-- The shortest decimal of the positive number `m * 2 ^ e`. -/
def shortest (m : Nat) (e : Int) : Decimal :=
  let num := m * Nat.pow 2 e.toNat
  let den := Nat.pow 2 (-e).toNat
  let start : Int := ((num.log2 : Int) - den.log2 - 1) * 30103 / 100000 - 1
  let point := decimalPoint num den 8 start
  let (c, p) := searchDigits (.finite false m e) num den point 16 1
  let size := (Nat.toDigits 10 c).length
  ⟨c, point + ((size : Int) - p)⟩

end Binary64

/-- How floating-point numbers are written. -/
structure RealFormat where
  /-- Up to this place of the point the number is written out. -/
  lastPlain : Int
  /-- Below this place of the point the number is written with an exponent. -/
  firstPlain : Int
  /-- The least number of digits of an exponent. -/
  exponentWidth : Nat
  nan : String
  infinite : String

namespace RealFormat

/-- An exponent with its sign. -/
def exponent (f : RealFormat) (e : Int) : List Char :=
  let ds := Nat.toDigits 10 e.natAbs
  (if e < 0 then '-' else '+') :: List.replicate (f.exponentWidth - ds.length) '0' ++ ds

/-- A positive decimal. -/
def decimal (f : RealFormat) (d : Decimal) : List Char :=
  let ds := ((Nat.toDigits 10 d.digits).reverse.dropWhile (· == '0')).reverse
  if d.point < f.firstPlain ∨ f.lastPlain < d.point then
    let tail := match ds.drop 1 with
      | [] => []
      | r => '.' :: r
    ds.take 1 ++ tail ++ 'e' :: f.exponent (d.point - 1)
  else if d.point ≤ 0 then '0' :: '.' :: List.replicate (-d.point).toNat '0' ++ ds
  else
    let whole := ds.take d.point.toNat
    let part := ds.drop d.point.toNat
    whole ++ List.replicate (d.point.toNat - whole.length) '0' ++ '.' ::
      (if part.isEmpty then ['0'] else part)

/-- A number in the format. -/
def render (f : RealFormat) : Binary64 → String
  | .nan => f.nan
  | .infinite negative => (if negative then "-" else "") ++ f.infinite
  | .finite negative m e =>
    let text := if m = 0 then ['0', '.', '0'] else f.decimal (Binary64.shortest m e)
    String.ofList (if negative then '-' :: text else text)

/-- Numbers as they stand in generated text. -/
def plain : RealFormat := ⟨16, -3, 2, "nan", "inf"⟩

/-- Numbers as they stand in JSON. -/
def json : RealFormat := ⟨16, -3, 2, "NaN", "Infinity"⟩

end RealFormat

/-- A number as it stands in generated text. -/
def Binary64.render (x : Binary64) : String := RealFormat.plain.render x

end Partitura.Number
