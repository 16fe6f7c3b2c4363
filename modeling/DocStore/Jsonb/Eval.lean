import DocStore.Json.Reader
import DocStore.Jsonb.Parse
import DocStore.Jsonb.Path
import DocStore.Text.Split

/-!
# Evaluating expressions

An expression is evaluated over the value of the `body` column and the
parameters of the statement. A datum is null, or a truth value, text, a
path or JSON; casts and functions accept only the types they are made
for. Null goes through casts, operators and most functions: only
`coalesce` passes over it, and only `jsonb_build_array` makes a JSON null
of it.
-/

namespace DocStore.Jsonb

inductive Datum where
  | null
  | bool (b : Bool)
  | text (s : String)
  | path (keys : List String)
  | json (j : Json)

def Datum.isNull : Datum → Bool
  | .null => true
  | _ => false

/-! ## Arrays of keys -/

/-- The elements of the inside of an array constant: `taken` of the element
at hand, in reverse, and whether it is inside quotes. A backslash makes
the next character an ordinary one. -/
def elements (taken : List Char) (quoted : Bool) : List Char → List String
  | [] => [.ofList taken.reverse]
  | '\\' :: c :: s => elements (c :: taken) quoted s
  | '\\' :: [] => [.ofList taken.reverse]
  | '"' :: s => elements taken (!quoted) s
  | c :: s =>
    if c = ',' && !quoted then .ofList taken.reverse :: elements [] false s
    else elements (c :: taken) quoted s

def keys? (s : String) : Option (List String) := do
  let inner ← Chars.strip? ['\x7b'] s.toList
  let inner ← Chars.stripEnd? ['\x7d'] inner
  return if inner = [] then [] else elements [] false inner

/-! ## Operations -/

/-- An operation on types it is not made for. -/
def unsupported {α : Type} : Except DbError α := .error (.execution .unsupportedExpression)

def edited (result : Except ExecutionFault Json) : Except DbError Datum :=
  match result with
  | .ok j => .ok (.json j)
  | .error fault => .error (.execution fault)

def castTo (type : String) : Datum → Except DbError Datum
  | .null => .ok .null
  | .text s =>
    if type = "text[]" then
      match keys? s with
      | some keys => .ok (.path keys)
      | none => unsupported
    else if type = "jsonb" then
      match Json.read? s with
      | some j => .ok (.json j)
      | none => .error (.malformed .notJson)
    else unsupported
  | .json j => if type = "jsonb" then .ok (.json j) else unsupported
  | _ => unsupported

def Op.apply : Op → Datum → Datum → Except DbError Datum
  | _, .null, _ => .ok .null
  | _, _, .null => .ok .null
  | .get, .json j, .path keys => .ok ((Jsonb.get? keys j).elim .null .json)
  | .delete, .json j, .path keys => edited (Jsonb.delete keys j)
  | .concat, .json a, .json b => .ok (.json (Jsonb.concat a b))
  | _, _, _ => unsupported

/-- The item of an array that is built from a datum. -/
def item : Datum → Except DbError Json
  | .null => .ok .null
  | .json j => .ok j
  | _ => unsupported

/-- A function that gives null if an argument is null. -/
def strictCall (name : String) : List Datum → Except DbError Datum
  | [.json target, .path keys, .json new] =>
    if name = "jsonb_set" then edited (Jsonb.set true keys new target)
    else if name = "jsonb_insert" then edited (Jsonb.insert keys new target)
    else unsupported
  | [.json target, .path keys, .json new, .bool create] =>
    if name = "jsonb_set" then edited (Jsonb.set create keys new target) else unsupported
  | _ => unsupported

def callOn (name : String) (args : List Datum) : Except DbError Datum :=
  if name = "coalesce" then .ok ((args.find? fun d => !d.isNull).getD .null)
  else if name = "jsonb_build_array" then do return .json (.arr (← args.mapM item))
  else if args.any Datum.isNull then .ok .null
  else strictCall name args

/-- A parameter: text, also of an integer, or JSON. -/
def parameter (params : List Cell) (ordinal : Nat) : Except DbError Datum :=
  match ordinal with
  | 0 => unsupported
  | n + 1 =>
    match params[n]? with
    | some .null => .ok .null
    | some (.text s) => .ok (.text s)
    | some (.int i) => .ok (.text (Cell.int i).display)
    | some (.json j) => .ok (.json j)
    | _ => unsupported

/-! ## Evaluation -/

mutual

/-- The datum of an expression; its parts are evaluated from left to right. -/
def Expr.eval (body : Json) (params : List Cell) : Expr → Except DbError Datum
  | .body => .ok (.json body)
  | .bool b => .ok (.bool b)
  | .param n => parameter params n
  | .literal s => .ok (.text s)
  | .cast e type => do castTo type (← eval body params e)
  | .binary op left right => do
    let left ← eval body params left
    let right ← eval body params right
    op.apply left right
  | .call name args => do callOn name (← evalAll body params args)
  | .stuck done => do
    let _ ← evalAll body params done
    unsupported

def Expr.evalAll (body : Json) (params : List Cell) : List Expr → Except DbError (List Datum)
  | [] => .ok []
  | e :: rest => do
    let datum ← eval body params e
    return datum :: (← evalAll body params rest)

end

/-- The JSON value of the text of an expression; none for null. -/
def evaluate (text : List Char) (body : Json) (params : List Cell) :
    Except DbError (Option Json) :=
  match Token.scan .between text with
  | none => unsupported
  | some tokens => do
    match ← (Expr.ofTokens tokens).eval body params with
    | .null => return none
    | .json j => return some j
    | _ => unsupported

end DocStore.Jsonb
