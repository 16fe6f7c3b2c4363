import DocStore.Condition.Basic
import DocStore.Condition.Key
import DocStore.Condition.Predicate
import DocStore.Sql.Path

/-!
# From conditions to predicates

A condition is routed first: an id, or a single field that names the
primary key, becomes a comparison with the key column; everything else
becomes comparisons with fields of the body. Each comparison is a value
(`Comparison`) before it is written, so its meaning does not hang on its
text.

How a field is compared depends on the value. Text is compared with the
text of the field. Numbers and booleans are compared as JSON for
equality, which needs no cast; for an order the field is cast, but only
where its JSON type allows that, and compares as null elsewhere. A null
value asks whether the field is there.
-/

namespace DocStore

/-! ## Comparisons -/

inductive Operand where
  | column (name : String)
  | field (segments : List String) (asText : Bool)
  /-- The field cast to a type of SQL, or null if its JSON type is another. -/
  | guarded (segments : List String) (jsonType sqlType : String)
deriving Repr, DecidableEq

def Operand.sql : Operand → Sql
  | .column name => [.name name]
  | .field segments asText => DocPath.field segments asText
  | .guarded segments jsonType sqlType =>
    .text "(case when jsonb_typeof(" :: DocPath.field segments false
      ++ [.text ") = ", .literal jsonType, .text " then "]
      ++ DocPath.field segments true ++ [.text ("::" ++ sqlType ++ " end)")]

inductive Comparison where
  | isNull (lhs : Operand) (negated : Bool)
  /-- With a value, as JSON if so marked. -/
  | holds (lhs : Operand) (operator : Operator) (value : Cell) (asJson : Bool)

namespace Comparison

/-- A comparison with any value; null has no order. -/
def of (lhs : Operand) (operator : Operator) (value : Cell) (asJson : Bool) :
    Except Refusal Comparison :=
  if value.isNull then
    match operator with
    | .eq => .ok (.isNull lhs false)
    | .notEq => .ok (.isNull lhs true)
    | operator => .error (.nullOrdering operator)
  else .ok (.holds lhs operator value asJson)

def fragment : Comparison → Fragment
  | .isNull lhs negated =>
    .free (lhs.sql ++ [.text (if negated then " is not null" else " is null")])
  | .holds lhs operator value asJson =>
    .bound value fun placeholder =>
      lhs.sql ++ [.text (" " ++ operator.sql ++ " "), placeholder]
        ++ (if asJson then [.text "::jsonb"] else [])

def ofField (key : Key) (value : Cell) : Except Refusal Comparison := do
  let segments ← DocPath.segments key.property
  let operator := key.effective
  match value with
  | .null | .text _ => of (.field segments true) operator value false
  | .json _ => of (.field segments false) operator value true
  | .int _ | .float _ =>
    if operator.isOrdering then of (.guarded segments "number" "numeric") operator value false
    else of (.field segments false) operator (.json value.toJson) true
  | .bool _ =>
    if operator.isOrdering then of (.guarded segments "boolean" "boolean") operator value false
    else of (.field segments false) operator (.json value.toJson) true

end Comparison

/-! ## Routing -/

/-- Where a condition looks. -/
inductive Route where
  | all
  | column (comparison : Comparison) (lookup : Bool)
  | body (comparisons : List Comparison)

namespace Route

/-- A comparison with the key column; equality makes it a lookup. -/
def ofColumn (name : String) (operator : Operator) (value : Cell) : Except Refusal Route := do
  let comparison ← Comparison.of (.column name) operator value false
  return .column comparison (operator = .eq)

def ofBody (fields : List (Key × Cell)) : Except Refusal Route := do
  return .body (← fields.mapM fun (key, value) => Comparison.ofField key value)

/-- A single field that names the primary key goes to its column. -/
def ofParsed (primaryKey : String) : List (Key × Cell) → Except Refusal Route
  | [] => .ok .all
  | [(key, value)] =>
    if key.property = primaryKey then ofColumn primaryKey key.effective value
    else ofBody [(key, value)]
  | fields => ofBody fields

def predicate : Route → Predicate
  | .all => .matchAll
  | .column comparison lookup => .conjunction [comparison.fragment] lookup .column
  | .body comparisons => .conjunction (comparisons.map Comparison.fragment) false .body

end Route

namespace Condition

def parsedFields (fields : List (String × Cell)) : Except Refusal (List (Key × Cell)) :=
  fields.mapM fun (key, value) => do return (← Key.parse key, value)

def route (condition : Condition) (primaryKey : String) : Except Refusal Route :=
  match condition with
  | .all => .ok .all
  | .byId id => Route.ofColumn primaryKey .eq id
  | .byFields fields => do Route.ofParsed primaryKey (← parsedFields fields)

def compile (condition : Condition) (primaryKey : String) : Except Refusal Predicate :=
  (condition.route primaryKey).map Route.predicate

end Condition

end DocStore
