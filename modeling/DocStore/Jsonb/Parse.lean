import DocStore.Jsonb.Token

/-!
# Reading expressions

A machine over tokens: one frame per open call, and at every level the
operation whose right side is still to come. It never fails. Where a
token does not fit, the result is `Expr.stuck` with the operands read so
far, since an operand that fails to evaluate is reported before text that
cannot be read.
-/

namespace DocStore.Jsonb

/-- The left side of an operation and its operator. -/
abbrev Pending := Option (Expr × Op)

/-- An open call: its name, the arguments so far (the last one first), and
what was pending around it. -/
structure Frame where
  name : String
  args : List Expr
  pending : Pending

inductive Place where
  | operand
  /-- An argument or the end of an empty list of arguments. -/
  | firstArg
  /-- The parenthesis after the name of a function. -/
  | callOf (name : String)
  | typeOf (e : Expr)
  | after (e : Expr)

structure Machine where
  stack : List Frame
  pending : Pending
  place : Place

namespace Machine

/-! ## Parts -/

def complete (pending : Pending) (e : Expr) : Expr :=
  match pending with
  | some (left, op) => .binary op left e
  | none => e

def pendingExprs (pending : Pending) : List Expr := pending.toList.map Prod.fst

/-- The operands of the open calls, in the order of evaluation. -/
def openExprs : List Frame → List Expr
  | [] => []
  | f :: stack => openExprs stack ++ pendingExprs f.pending ++ f.args.reverse

def done (m : Machine) : List Expr :=
  openExprs m.stack ++
    match m.place with
    | .after e => [complete m.pending e]
    | .typeOf e => pendingExprs m.pending ++ [e]
    | _ => pendingExprs m.pending

/-! ## Steps -/

def startOperand (m : Machine) : Token → Option Machine
  | .param n => some { m with place := .after (.param n) }
  | .literal s => some { m with place := .after (.literal s) }
  | .word s =>
    if s = "body" then some { m with place := .after .body }
    else if s = "true" then some { m with place := .after (.bool true) }
    else if s = "false" then some { m with place := .after (.bool false) }
    else some { m with place := .callOf s }
  | _ => none

/-- The call of the innermost frame, with one more argument if given. -/
def close (m : Machine) (last : List Expr) : Option Machine :=
  match m.stack with
  | [] => none
  | f :: stack => some ⟨stack, f.pending, .after (.call f.name (f.args.reverse ++ last))⟩

def continueAfter (m : Machine) (e : Expr) : Token → Option Machine
  | .cast => some { m with place := .typeOf e }
  | .op op => some { m with pending := some (complete m.pending e, op), place := .operand }
  | .comma =>
    match m.stack with
    | [] => none
    | f :: stack =>
      some ⟨{ f with args := complete m.pending e :: f.args } :: stack, none, .operand⟩
  | .closing => m.close [complete m.pending e]
  | _ => none

def advance (m : Machine) (token : Token) : Option Machine :=
  match m.place, token with
  | .operand, token => m.startOperand token
  | .firstArg, .closing => m.close []
  | .firstArg, token => m.startOperand token
  | .callOf name, .opening => some ⟨⟨name, [], m.pending⟩ :: m.stack, none, .firstArg⟩
  | .typeOf e, .word type => some { m with place := .after (.cast e type) }
  | .after e, token => m.continueAfter e token
  | _, _ => none

/-- The expression that the rest of the tokens completes. -/
def run (m : Machine) : List Token → Expr
  | [] =>
    match m.stack, m.place with
    | [], .after e => complete m.pending e
    | _, _ => .stuck m.done
  | token :: rest =>
    match m.advance token with
    | some m => run m rest
    | none => .stuck m.done

end Machine

def Expr.ofTokens (tokens : List Token) : Expr := Machine.run ⟨[], none, .operand⟩ tokens

end DocStore.Jsonb
