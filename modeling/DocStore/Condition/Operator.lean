/-!
# Comparison operators

The six operators a condition may use, and the one spelling that
statements use for each.
-/

namespace DocStore

inductive Operator where
  | eq
  | notEq
  | lt
  | ltEq
  | gt
  | gtEq
deriving Repr, DecidableEq

namespace Operator

def sql : Operator → String
  | .eq => "="
  | .notEq => "<>"
  | .lt => "<"
  | .ltEq => "<="
  | .gt => ">"
  | .gtEq => ">="

/-- Does it ask for an order, and not only for equality? -/
def isOrdering : Operator → Bool
  | .eq => false
  | .notEq => false
  | _ => true

/-- The operator at the beginning of a text, and what follows it. Two
characters are taken where they make up an operator. -/
def atStart? : List Char → Option (Operator × List Char)
  | '<' :: '=' :: s => some (.ltEq, s)
  | '>' :: '=' :: s => some (.gtEq, s)
  | '!' :: '=' :: s => some (.notEq, s)
  | '<' :: '>' :: s => some (.notEq, s)
  | '=' :: s => some (.eq, s)
  | '<' :: s => some (.lt, s)
  | '>' :: s => some (.gt, s)
  | _ => none

/-- The first operator in a text, with what stands before and after it. -/
def first? : List Char → Option (List Char × Operator × List Char)
  | [] => none
  | c :: s =>
    match atStart? (c :: s) with
    | some (op, rest) => some ([], op, rest)
    | none => (first? s).map fun (before, op, rest) => (c :: before, op, rest)

theorem sql_injective {a b : Operator} (h : a.sql = b.sql) : a = b := by
  revert h
  cases a <;> cases b <;> decide

theorem first?_eq_none_of_free {s : List Char} (h : ∀ c ∈ s, c ≠ '<' ∧ c ≠ '>' ∧ c ≠ '=') :
    first? s = none := by
  induction s with
  | nil => rfl
  | cons c s ih =>
    rw [List.forall_mem_cons] at h
    have hstart : atStart? (c :: s) = none := by
      unfold atStart?
      split <;> simp_all
    simp [first?, hstart, ih h.2]

end Operator

end DocStore
