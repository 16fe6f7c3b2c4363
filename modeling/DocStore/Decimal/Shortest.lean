/-!
# The shortest decimal of a binary number

A binary floating-point number stands for an interval of reals: those
that round to it. Its shortest decimal is the one with the fewest digits
inside that interval and, among those, the nearest to the number itself.

The number is `m * 2 ^ q` with `m` positive. The interval reaches half a
unit of `m` to both sides; directly above a power of two the numbers
below lie twice as dense, so there it reaches only a quarter of a unit
down. Its ends belong to it if `m` is even. All arithmetic is exact:
both sides of a comparison are multiplied out to natural numbers.

The decimals with a given last place form a grid, and if any point of
the grid lies in the interval then so does one of the two neighbours of
the number, so the search tests two candidates per count of digits.
Where the number lies halfway between them, `Ties` decides.
-/

namespace DocStore

/-- A decimal, `digits * 10 ^ exponent`. -/
structure Decimal where
  digits : Nat
  exponent : Int
deriving Repr, DecidableEq

/-- Which of two equally near decimals is taken. -/
inductive Ties where
  | toEven
  | up
deriving Repr, DecidableEq

/-- A positive binary number, and whether its interval is narrow on the
lower side. -/
structure Binary where
  mantissa : Nat
  exponent : Int
  narrow : Bool
deriving Repr, DecidableEq

namespace Binary

/-! ## Comparing decimals with binary numbers -/

/-- `base` to the power `e`, or one for a negative `e`. -/
def power (base : Nat) (e : Int) : Nat := Nat.pow base e.toNat

/-- The two sides of comparing `a * 10 ^ k` with `b * 2 ^ p`, multiplied out. -/
def sides (a : Nat) (k : Int) (b : Nat) (p : Int) : Nat × Nat :=
  (a * power 10 k * power 2 (-p), b * power 2 p * power 10 (-k))

/-- Does the decimal round to the number? The ends of the interval are
counted in quarters of a unit. -/
def covers (b : Binary) (d : Decimal) : Bool :=
  let lowEnd := 4 * b.mantissa - if b.narrow then 1 else 2
  let low := sides d.digits d.exponent lowEnd (b.exponent - 2)
  let high := sides d.digits d.exponent (4 * b.mantissa + 2) (b.exponent - 2)
  if b.mantissa % 2 = 0 then low.2 ≤ low.1 && high.1 ≤ high.2
  else low.2 < low.1 && high.1 < high.2

/-! ## The grid of one last place -/

def floorAt (b : Binary) (k : Int) : Nat :=
  b.mantissa * power 2 b.exponent * power 10 (-k) / (power 2 (-b.exponent) * power 10 k)

/-- The two neighbours of the number among the multiples of `10 ^ k`, the
preferred one first. -/
def neighbours (b : Binary) (ties : Ties) (k : Int) : List Decimal :=
  let n := b.floorAt k
  let middle := sides (2 * n + 1) k (2 * b.mantissa) b.exponent
  let upper : Bool :=
    if middle.1 == middle.2 then
      match ties with
      | .toEven => n % 2 == 1
      | .up => true
    else decide (middle.1 < middle.2)
  if upper then [⟨n + 1, k⟩, ⟨n, k⟩] else [⟨n, k⟩, ⟨n + 1, k⟩]

/-! ## The search -/

/-- The place of the first digit: `e` with `10 ^ e` at most the number and
`10 ^ (e + 1)` above it. Below one it is searched for down to the
smallest number of sixty-four bits. -/
def leadingPlace (b : Binary) : Int :=
  let whole := b.floorAt 0
  if whole = 0 then
    match (List.range 330).find? fun (j : Nat) => b.floorAt (-(j + 1 : Int)) ≠ 0 with
    | some j => -(j + 1 : Int)
    | none => 0
  else (Nat.toDigits 10 whole).length - 1

/-- The shortest decimal. Seventeen digits always suffice for a mantissa
of fifty-three bits. -/
def shortest (b : Binary) (ties : Ties) : Decimal :=
  let place := b.leadingPlace
  ((List.range 17).findSome? fun (n : Nat) => (b.neighbours ties (place - n)).find? b.covers).getD
    ⟨b.floorAt (place - 16), place - 16⟩

end Binary

end DocStore
