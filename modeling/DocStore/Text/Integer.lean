/-!
# Reading integers

An integer is written as an optional sign and at least one decimal
digit; leading zeros are allowed and nothing else is. Unsigned numbers
take a plus sign but no minus sign. A number outside its range is not
read.
-/

namespace DocStore.Chars

/-- The value of a digit run, continuing from `n`. -/
def digitsFrom (n : Nat) : List Char → Option Nat
  | [] => some n
  | c :: s => if c.isDigit then digitsFrom (10 * n + (c.toNat - 48)) s else none

/-- One or more decimal digits. -/
def nat? : List Char → Option Nat
  | [] => none
  | s => digitsFrom 0 s

/-- Digits with an optional sign. -/
def int? : List Char → Option Int
  | '+' :: s => (nat? s).map fun n => (n : Int)
  | '-' :: s => (nat? s).map fun n => -(n : Int)
  | s => (nat? s).map fun n => (n : Int)

/-- Digits with an optional plus sign, within sixty-four bits. -/
def size? (s : List Char) : Option Nat :=
  let digits := match s with
    | '+' :: s => s
    | s => s
  (nat? digits).filter (· ≤ 18446744073709551615)

/-- Digits with an optional sign, within sixty-four bits. -/
def int64? (s : List Char) : Option Int :=
  (int? s).filter fun i => -9223372036854775808 ≤ i && i ≤ 9223372036854775807

theorem int64?_bounds {s : List Char} {i : Int} (h : int64? s = some i) :
    -9223372036854775808 ≤ i ∧ i ≤ 9223372036854775807 := by
  simp only [int64?, Option.filter_eq_some_iff, Bool.and_eq_true, decide_eq_true_eq] at h
  exact h.2

end DocStore.Chars
