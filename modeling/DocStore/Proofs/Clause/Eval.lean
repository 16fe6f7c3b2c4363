import DocStore.Cell
import DocStore.Json.Reader
import DocStore.Proofs.Clause.Expr
import DocStore.Proofs.Clause.Server

/-!
# What a clause means

A clause is evaluated over the columns of a row and the parameters of a
statement. An arrow gives the member of an object, or null; as text, a
JSON null is null too. A comparison with null is null. A conjunction is
false if one side is, and null if it is not known. A `case` evaluates
its value only if the test is true. A text that does not stand for a
value of the type it is cast to is a fault, and so is an operation on
types it is not made for.
-/

namespace DocStore.Clause

inductive Datum where
  | null
  | bool (b : Bool)
  | number (q : Rat)
  | text (s : String)
  | json (j : Json)

inductive Fault where
  | badCast (text type : String)
  | mistyped
  | noColumn (name : String)
  | noParameter (ordinal : Nat)

/-- The data in the columns of a row. -/
abbrev Row := String → Option Datum

/-! ## Operations -/

def Datum.isNull : Datum → Bool
  | .null => true
  | _ => false

/-- The JSON type of a value. -/
def jsonType : Json → String
  | .null => "null"
  | .bool _ => "boolean"
  | .num _ => "number"
  | .str _ => "string"
  | .arr _ => "array"
  | .obj _ => "object"

def castTo (type : String) : Datum → Except Fault Datum
  | .null => .ok .null
  | .text s =>
    if type = "numeric" then
      match numeric? s with
      | some q => .ok (.number q)
      | none => .error (.badCast s type)
    else if type = "boolean" then
      if s = "true" then .ok (.bool true)
      else if s = "false" then .ok (.bool false)
      else .error (.badCast s type)
    else if type = "jsonb" then
      match Json.read? s with
      | some j => .ok (.json j)
      | none => .error (.badCast s type)
    else .error .mistyped
  | .json j => if type = "jsonb" then .ok (.json j) else .error .mistyped
  | _ => .error .mistyped

/-- The datum of a parameter. A number of either kind is known by its value; a
floating-point number that is not finite has none. -/
def parameter (params : List Cell) (ordinal : Nat) : Except Fault Datum :=
  match ordinal with
  | 0 => .error (.noParameter 0)
  | n + 1 =>
    match params[n]? with
    | some .null => .ok .null
    | some (.int i) => .ok (.number (Number.ofInt64 i).value)
    | some (.float x) =>
      match Number.ofFloat? x with
      | some number => .ok (.number number.value)
      | none => .error .mistyped
    | some (.text s) => .ok (.text s)
    | some (.bool b) => .ok (.bool b)
    | some (.json j) => .ok (.json j)
    | none => .error (.noParameter (n + 1))

/-- A conjunction; what is not known does not matter beside a false side. -/
def both : Datum → Datum → Except Fault Datum
  | .bool a, .bool b => .ok (.bool (a && b))
  | .bool a, .null => .ok (if a then .null else .bool false)
  | .null, .bool b => .ok (if b then .null else .bool false)
  | .null, .null => .ok .null
  | _, _ => .error .mistyped

namespace Server

variable (server : Server)

/-- A JSON value as text. -/
def asText : Json → Datum
  | .null => .null
  | j => .text (server.shown j)

def member (asText : Bool) : Datum → Datum → Except Fault Datum
  | .null, _ => .ok .null
  | _, .null => .ok .null
  | .json j, .text key =>
    match j.member? key with
    | some child => .ok (if asText then server.asText child else .json child)
    | none => .ok .null
  | _, _ => .error .mistyped

def compare (operator : Operator) : Datum → Datum → Except Fault Datum
  | .null, _ => .ok .null
  | _, .null => .ok .null
  | .bool a, .bool b => .ok (.bool (operator.accepts (Ord.compare a b)))
  | .number p, .number q => .ok (.bool (operator.accepts (numberOrder p q)))
  | .text s, .text t => .ok (.bool (operator.accepts (server.textOrder s t)))
  | .json i, .json j => .ok (.bool (operator.accepts (server.jsonOrder i j)))
  | _, _ => .error .mistyped

def apply : Op → Datum → Datum → Except Fault Datum
  | .member asText => server.member asText
  | .compare operator => server.compare operator
  | .both => both

end Server

/-! ## Evaluation -/

/-- The datum of an expression. -/
def Expr.eval (server : Server) (row : Row) (params : List Cell) : Expr → Except Fault Datum
  | .column name =>
    match row name with
    | some d => .ok d
    | none => .error (.noColumn name)
  | .param n => parameter params n
  | .literal s => .ok (.text s)
  | .binary op left right => do
    let left ← eval server row params left
    let right ← eval server row params right
    server.apply op left right
  | .cast e type => do castTo type (← eval server row params e)
  | .isNull e negated => do
    let d ← eval server row params e
    return .bool (d.isNull != negated)
  | .typeOf e => do
    match ← eval server row params e with
    | .null => return .null
    | .json j => return .text (jsonType j)
    | _ => .error .mistyped
  | .caseWhen test value => do
    match ← eval server row params test with
    | .bool true => eval server row params value
    | .bool false => return .null
    | .null => return .null
    | _ => .error .mistyped

end DocStore.Clause
