import DocStore.Decimal.Float

/-!
# JSON numbers

A number is an integer of sixty-four bits, signed or unsigned, or a
finite floating-point number; the two kinds are told apart by how they
are written, and an integer is never equal to a floating-point number.
The bounds are part of the type, so every number can be written and read
back as the same kind.
-/

namespace DocStore

inductive Number where
  | int (i : Int) (low : -9223372036854775808 ≤ i) (high : i ≤ 18446744073709551615)
  | float (x : Float) (finite : x.isFinite = true)
deriving DecidableEq

namespace Number

/-! ## Construction -/

/-- The integer, if it is in range. -/
def ofInt? (i : Int) : Option Number :=
  if h : -9223372036854775808 ≤ i ∧ i ≤ 18446744073709551615 then some (.int i h.1 h.2) else none

/-- The floating-point number, if it is finite. -/
def ofFloat? (x : Float) : Option Number :=
  if h : x.isFinite = true then some (.float x h) else none

theorem int64_bounds (i : Int64) :
    -9223372036854775808 ≤ i.toInt ∧ i.toInt ≤ 18446744073709551615 := by
  have low : -9223372036854775808 ≤ i.toInt := by simpa using Int64.le_toInt i
  have high : i.toInt < 9223372036854775808 := by simpa using Int64.toInt_lt i
  omega

def ofInt64 (i : Int64) : Number := .int i.toInt (int64_bounds i).1 (int64_bounds i).2

/-- The integer if it is signed, otherwise nothing. -/
def toInt64? : Number → Option Int64
  | .int i _ _ => if i ≤ 9223372036854775807 then some (.ofInt i) else none
  | .float _ _ => none

def toFloat : Number → Float
  | .int i _ _ => Float.ofInt i
  | .float x _ => x

@[simp] theorem toInt64?_ofInt64 (i : Int64) : (ofInt64 i).toInt64? = some i := by
  have high : i.toInt < 9223372036854775808 := by simpa using Int64.toInt_lt i
  simp [ofInt64, toInt64?, show i.toInt ≤ 9223372036854775807 by omega]

/-! ## Equality -/

/-- Integers by value and floating-point numbers by value, so the two zeros
are equal; never one with the other. -/
def same : Number → Number → Bool
  | .int i _ _, .int j _ _ => i == j
  | .float x _, .float y _ => unitsOf x == unitsOf y
  | _, _ => false

@[simp] theorem same_self (n : Number) : n.same n = true := by
  cases n <;> simp [same]

/-! ## Text -/

/-- Numbers in JSON: positional from `0.00001` to below `1e16`, always
with a point or an exponent. -/
def format : FloatFormat where
  ties := .toEven
  positional place := -5 ≤ place && place < 16
  keepsPoint := true

/-- An integer in decimal digits with a sign if it is negative. -/
def intChars (i : Int) : List Char :=
  if i < 0 then '-' :: Nat.toDigits 10 i.natAbs else Nat.toDigits 10 i.natAbs

def chars : Number → List Char
  | .int i _ _ => intChars i
  | .float x _ => format.chars x

/-! ## Reading -/

structure Literal where
  negative : Bool
  whole : List Char
  fraction : List Char
  exponent : Int
  /-- Without a fraction and an exponent. -/
  plain : Bool
deriving Repr, DecidableEq

def digitsValue (digits : List Char) : Nat :=
  digits.foldl (fun n c => 10 * n + (c.toNat - 48)) 0

/-- An exponent, with its `e` and its sign: nothing, or at least one digit. -/
def exponent? : List Char → Option (Option Int)
  | [] => some none
  | c :: s =>
    if c = 'e' || c = 'E' then
      let (negative, digits) := match s with
        | '-' :: s => (true, s)
        | '+' :: s => (false, s)
        | s => (false, s)
      if digits ≠ [] && digits.all Char.isDigit then
        some (some (if negative then -(digitsValue digits : Int) else digitsValue digits))
      else none
    else none

/-- A literal: an optional minus sign, digits without a leading zero, an
optional fraction, an optional exponent. -/
def literal? (s : List Char) : Option Literal :=
  let (negative, s) := match s with
    | '-' :: s => (true, s)
    | s => (false, s)
  let whole := s.takeWhile Char.isDigit
  let s := s.dropWhile Char.isDigit
  if whole = [] || (whole.head? = some '0' && 1 < whole.length) then none
  else match s with
    | '.' :: s =>
      let fraction := s.takeWhile Char.isDigit
      if fraction = [] then none
      else (exponent? (s.dropWhile Char.isDigit)).map fun e =>
        ⟨negative, whole, fraction, e.getD 0, false⟩
    | s => (exponent? s).map fun e => ⟨negative, whole, [], e.getD 0, e.isNone⟩

/-- Digits appended to a number as long as it fits in sixty-four bits; the
second part counts the digits left out. -/
def appendDigits (n : Nat) : List Char → Nat × Nat
  | [] => (n, 0)
  | c :: rest =>
    let next := 10 * n + (c.toNat - 48)
    if next ≤ 18446744073709551615 then appendDigits next rest else (n, rest.length + 1)

/-- The decimal of a literal without its sign, as many digits as fit. A
whole digit left out still counts as a place, a fraction digit does not. -/
def Literal.decimal (l : Literal) : Decimal :=
  let (whole, skipped) := appendDigits 0 l.whole
  let (digits, dropped) := appendDigits whole l.fraction
  ⟨digits, l.exponent + skipped - (l.fraction.length - dropped : Nat)⟩

/-- The floating-point number that a literal is read as, if it is finite. -/
def Literal.float? (l : Literal) : Option Number := do
  let x ← l.decimal.toFloat?
  ofFloat? (if l.negative then -x else x)

/-- A plain literal in range is an integer, except for negative zero; every
other literal is a floating-point number. -/
def Literal.number? (l : Literal) : Option Number :=
  let magnitude := digitsValue l.whole
  let value : Int := if l.negative then -(magnitude : Int) else magnitude
  if l.plain && !(l.negative && magnitude = 0) then
    (ofInt? value).or l.float?
  else l.float?

def ofChars? (s : List Char) : Option Number := (literal? s).bind Literal.number?

end Number

end DocStore
