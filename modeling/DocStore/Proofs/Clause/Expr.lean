import DocStore.Condition.Operator
import DocStore.Proofs.Clause.Token

/-!
# Reading a clause

A clause is an expression over the columns of a row and the parameters.
The reader takes one token at a time and keeps operations pending until
one comes that binds no stronger: casts bind strongest, then the arrows
into JSON, then comparisons, then the tests for null, and `and` binds
weakest. Operations of one strength are read from the left. A
parenthesis or a `case` puts the pending operations aside until it is
closed.
-/

namespace DocStore.Clause

inductive Op where
  /-- The member of an object, as JSON or as text. -/
  | member (asText : Bool)
  | compare (operator : Operator)
  | both
deriving Repr, DecidableEq

inductive Expr where
  | column (name : String)
  | param (ordinal : Nat)
  | literal (s : String)
  | binary (op : Op) (left right : Expr)
  | cast (e : Expr) (type : String)
  | isNull (e : Expr) (negated : Bool)
  /-- The JSON type of a value. -/
  | typeOf (e : Expr)
  /-- A value on condition, null otherwise. -/
  | caseWhen (test value : Expr)
deriving Repr, DecidableEq

/-! ## Strength -/

namespace Op

def strength : Op → Nat
  | .member _ => 3
  | .compare _ => 2
  | .both => 0

def ofSymbol? (s : String) : Option Op :=
  if s = "->" then some (.member false)
  else if s = "->>" then some (.member true)
  else if s = "=" then some (.compare .eq)
  else if s = "<>" then some (.compare .notEq)
  else if s = "<" then some (.compare .lt)
  else if s = "<=" then some (.compare .ltEq)
  else if s = ">" then some (.compare .gt)
  else if s = ">=" then some (.compare .gtEq)
  else none

end Op

/-- The strength of a test for null. -/
def isNullStrength : Nat := 1

/-- Operations whose right side is not complete, each with its left side; the
innermost first. -/
abbrev Pending := List (Expr × Op)

/-- Completes with `e` the pending operations of at least this strength. -/
def reduce (strength : Nat) : Pending → Expr → Pending × Expr
  | [], e => ([], e)
  | (left, op) :: pending, e =>
    if strength ≤ op.strength then reduce strength pending (.binary op left e)
    else ((left, op) :: pending, e)

/-- Completes all pending operations. -/
def complete (pending : Pending) (e : Expr) : Expr := (reduce 0 pending e).2

/-! ## The reader -/

/-- What is to be closed. -/
inductive Opened where
  | paren
  | typeOf
  /-- Between `when` and `then`. -/
  | test
  /-- Between `then` and `end`. -/
  | value (test : Expr)

/-- What the reader stands at. -/
inductive Place where
  | operand
  | after (e : Expr)
  | typeName (e : Expr)
  | null (e : Expr)
  | notNull (e : Expr)
  | typeOf
  | caseWhen

/-- What is open, each with the operations pending outside of it, the
operations pending inside, and the place. -/
structure Reader where
  stack : List (Opened × Pending)
  pending : Pending
  place : Place

namespace Reader

def start : Reader := ⟨[], [], .operand⟩

def infixOp (r : Reader) (op : Op) (e : Expr) : Reader :=
  let (pending, left) := reduce op.strength r.pending e
  { r with pending := (left, op) :: pending, place := .operand }

def operand (r : Reader) : Token → Option Reader
  | .word s =>
    if s = "case" then some { r with place := .caseWhen }
    else if s = "jsonb_typeof" then some { r with place := .typeOf }
    else some { r with place := .after (.column s) }
  | .name s => some { r with place := .after (.column s) }
  | .literal s => some { r with place := .after (.literal s) }
  | .placeholder n => some { r with place := .after (.param n) }
  | .opening => some ⟨(.paren, r.pending) :: r.stack, [], .operand⟩
  | _ => none

/-- After an operand: an operation, or the end of what is open. -/
def after (r : Reader) (e : Expr) : Token → Option Reader
  | .symbol s =>
    if s = "::" then some { r with place := .typeName e }
    else (Op.ofSymbol? s).map fun op => r.infixOp op e
  | .word s =>
    if s = "and" then some (r.infixOp .both e)
    else if s = "is" then
      let (pending, e) := reduce isNullStrength r.pending e
      some { r with pending, place := .null e }
    else
      match r.stack with
      | (.test, outer) :: stack =>
        if s = "then" then
          some ⟨(.value (complete r.pending e), outer) :: stack, [], .operand⟩
        else none
      | (.value test, outer) :: stack =>
        if s = "end" then some ⟨stack, outer, .after (.caseWhen test (complete r.pending e))⟩
        else none
      | _ => none
  | .closing =>
    match r.stack with
    | (.paren, outer) :: stack => some ⟨stack, outer, .after (complete r.pending e)⟩
    | (.typeOf, outer) :: stack => some ⟨stack, outer, .after (.typeOf (complete r.pending e))⟩
    | _ => none
  | _ => none

def advance (r : Reader) (t : Token) : Option Reader :=
  match r.place with
  | .operand => r.operand t
  | .after e => r.after e t
  | .typeName e =>
    match t with
    | .word type => some { r with place := .after (.cast e type) }
    | _ => none
  | .null e =>
    if t = .word "null" then some { r with place := .after (.isNull e false) }
    else if t = .word "not" then some { r with place := .notNull e }
    else none
  | .notNull e =>
    if t = .word "null" then some { r with place := .after (.isNull e true) } else none
  | .typeOf => if t = .opening then some ⟨(.typeOf, r.pending) :: r.stack, [], .operand⟩ else none
  | .caseWhen =>
    if t = .word "when" then some ⟨(.test, r.pending) :: r.stack, [], .operand⟩ else none

def run (r : Reader) : List Token → Option Reader
  | [] => some r
  | t :: rest => (r.advance t).bind (run · rest)

/-- The expression, if nothing is open. -/
def result (r : Reader) : Option Expr :=
  match r.stack, r.place with
  | [], .after e => some (complete r.pending e)
  | _, _ => none

end Reader

/-- The expression that a text is read as. -/
def read? (clause : String) : Option Expr := do
  let lexemes ← Sql.lex clause.toList
  let reader ← Reader.start.run (tokens lexemes)
  reader.result

end DocStore.Clause
