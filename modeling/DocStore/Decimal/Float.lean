import DocStore.Decimal.Shortest

/-!
# Decimal text of floating-point numbers

Writing starts from the shortest decimal that reads back. What differs
between formats is gathered in a `FloatFormat`: which numbers are
written positionally, whether a whole number keeps a decimal point, and
how ties go. Reading takes the digits as a number and scales it by a
power of ten; each of the two steps rounds, so the result can be a
neighbour of the nearest number. One that is too large is refused.
-/

namespace DocStore

/-! ## Taking a number apart -/

/-- The sign bit, also of a zero. -/
def signBit (x : Float) : Bool := x.toBits.toNat / 9223372036854775808 = 1

/-- The magnitude of a finite number other than zero. -/
def binaryOf (x : Float) : Binary :=
  let bits := x.toBits.toNat
  let fraction := bits % 4503599627370496
  let biased := bits / 4503599627370496 % 2048
  if biased = 0 then ⟨fraction, -1074, false⟩
  else ⟨fraction + 4503599627370496, biased - 1075, fraction = 0 && 1 < biased⟩

/-- A finite number as a multiple of the smallest positive one, `2 ^ -1074`. -/
def unitsOf (x : Float) : Int :=
  let b := binaryOf x
  let size : Int := b.mantissa * Binary.power 2 (b.exponent + 1074)
  if signBit x then -size else size

/-! ## Formats -/

structure FloatFormat where
  /-- Which of two equally short and equally near decimals is written. -/
  ties : Ties
  /-- Places of the first digit for which no exponent is written. -/
  positional : Int → Bool
  /-- Does a whole number keep a decimal point? -/
  keepsPoint : Bool

namespace FloatFormat

/-- The digits of a decimal without trailing zeros, and the place of the first. -/
def significant (d : Decimal) : List Char × Int :=
  let all := Nat.toDigits 10 d.digits
  ((all.reverse.dropWhile (· == '0')).reverse, d.exponent + all.length - 1)

/-- Digits around a decimal point, the first digit at `place`. -/
def positionalText (keepsPoint : Bool) (digits : List Char) (place : Int) : List Char :=
  if place < 0 then '0' :: '.' :: List.replicate (-place - 1).toNat '0' ++ digits
  else
    let width := place.toNat + 1
    let whole := digits.take width ++ List.replicate (width - digits.length) '0'
    match digits.drop width with
    | [] => if keepsPoint then whole ++ ['.', '0'] else whole
    | rest => whole ++ '.' :: rest

/-- One digit before the point, and a signed exponent. -/
def scientificText (digits : List Char) (place : Int) : List Char :=
  let mantissa := match digits with
    | [] => []
    | [d] => [d]
    | d :: rest => d :: '.' :: rest
  let exponent := (if place < 0 then '-' else '+') :: Nat.toDigits 10 place.natAbs
  mantissa ++ 'e' :: exponent

def magnitude (f : FloatFormat) (x : Float) : List Char :=
  if x == 0 then if f.keepsPoint then ['0', '.', '0'] else ['0']
  else
    let (digits, place) := significant ((binaryOf x).shortest f.ties)
    if f.positional place then positionalText f.keepsPoint digits place
    else scientificText digits place

/-- A finite number; a negative zero keeps its sign. -/
def chars (f : FloatFormat) (x : Float) : List Char :=
  if signBit x then '-' :: f.magnitude x else f.magnitude x

end FloatFormat

/-! ## Reading -/

namespace Decimal

/-- A power of ten, rounded to the nearest number. The last finite one is `1e308`. -/
def powerOfTen (n : Nat) : Float := Float.ofScientific 1 false n

/-- The digits, rounded to a number, times or over the power of ten, unless
that is too large. A power beyond the last finite one is divided out in
two steps; no digits of sixty-four bits survive more than two. -/
def toFloat? (d : Decimal) : Option Float :=
  let x := Float.ofNat d.digits
  let places := d.exponent.natAbs
  if d.digits = 0 then some 0
  else if d.exponent < 0 then
    some (x / powerOfTen (min places 308) / powerOfTen (min (places - 308) 308))
  else if 308 < places then none
  else
    let y := x * powerOfTen places
    if y.isFinite then some y else none

end Decimal

end DocStore
