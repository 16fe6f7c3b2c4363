import DocStore.Error

/-!
# Condition keys

The key of a field condition names a property and may carry one operator
anywhere in it, usually at the end: `age >=`. What is not an operator is
part of the property, which is trimmed and must not be empty. Two
operators make a key ambiguous.
-/

namespace DocStore

/-- A property and the operator written with it, if any. -/
structure Key where
  property : String
  operator : Option Operator
deriving Repr, DecidableEq

namespace Key

/-- The operator to compare with; equality if none was written. -/
def effective (k : Key) : Operator := k.operator.getD .eq

/-- The key with the given property, blank at neither end. -/
def named (key : String) (property : List Char) (operator : Option Operator) :
    Except Refusal Key :=
  let property := Chars.trim property
  if property = [] then .error (.noProperty key) else .ok ⟨.ofList property, operator⟩

def parse (key : String) : Except Refusal Key :=
  match Operator.first? key.toList with
  | none => named key key.toList none
  | some (before, operator, rest) =>
    match Operator.first? rest with
    | none => named key (before ++ rest) (some operator)
    | some _ => .error (.severalOperators key)

end Key

end DocStore
