import DocStore.Condition.Operator
import DocStore.Json.Printer

/-!
# What a clause leaves to the database

How the JSON values that it stores are shown as text, and in which order
texts and JSON values are. Of the texts, those of numbers and booleans
matter, because a clause casts them back: the text of a number is a
literal of the same value. Numbers are equal by value, whether they are
integers or not.
-/

namespace DocStore

/-! ## Numbers by value -/

def Decimal.value (d : Decimal) : Rat := d.digits * (10 : Rat) ^ d.exponent

namespace Number

/-- The value of a number. One with a floating point counts as the shortest
decimal, in which it is written. -/
def value : Number → Rat
  | .int i _ _ => i
  | .float x _ =>
    let size := ((binaryOf x).shortest .toEven).value
    if signBit x then -size else size

def Literal.value (l : Literal) : Rat :=
  let size := (Decimal.mk (digitsValue (l.whole ++ l.fraction))
    (l.exponent - l.fraction.length)).value
  if l.negative then -size else size

end Number

/-! ## The database -/

namespace Clause

/-- The number that a text stands for. -/
def numeric? (s : String) : Option Rat := (Number.literal? s.toList).map Number.Literal.value

structure Server where
  /-- The text of a value that is neither a string nor null. -/
  text : Json → String
  textOrder : String → String → Ordering
  jsonOrder : Json → Json → Ordering
  numeric?_text (n : Number) : numeric? (text (.num n)) = some n.value
  text_bool (b : Bool) : text (.bool b) = if b then "true" else "false"
  textOrder_eq {s t : String} : textOrder s t = .eq ↔ s = t
  jsonOrder_num {j : Json} {n : Number} :
    jsonOrder j (.num n) = .eq ↔ ∃ m, j = .num m ∧ m.value = n.value
  jsonOrder_bool {j : Json} {b : Bool} : jsonOrder j (.bool b) = .eq ↔ j = .bool b

/-- The order of numbers. -/
def numberOrder (a b : Rat) : Ordering := compareOfLessAndEq a b

/-- The text of a value that is not null; a string is its own. -/
def Server.shown (server : Server) : Json → String
  | .str s => s
  | j => server.text j

end Clause

/-- Is a comparison with this outcome true? -/
def Operator.accepts : Operator → Ordering → Bool
  | .eq, o => o == .eq
  | .notEq, o => o != .eq
  | .lt, o => o == .lt
  | .ltEq, o => o != .gt
  | .gt, o => o == .gt
  | .gtEq, o => o != .lt

end DocStore
