import DocStore.Sql.Piece

/-!
# Expressions over JSON columns

The expressions that an update assigns to the `body` column: the column
itself, parameters and constants, casts, calls, and operators, which are
left-associative and all bind equally strongly. There are no parentheses
around operands, so the right side of an operator and the inside of a
cast are never themselves operations.

`sql` writes an expression; `Jsonb.Parse` reads it.
-/

namespace DocStore.Jsonb

inductive Op where
  | get
  | delete
  | concat
deriving Repr, DecidableEq

def Op.symbol : Op → String
  | .get => "#>"
  | .delete => "#-"
  | .concat => "||"

inductive Expr where
  | body
  | bool (b : Bool)
  | param (ordinal : Nat)
  | literal (s : String)
  | cast (e : Expr) (type : String)
  | binary (op : Op) (left right : Expr)
  | call (name : String) (args : List Expr)
  /-- Text that cannot be read on from some point; the operands before it,
  in the order in which they are evaluated. -/
  | stuck (done : List Expr)

namespace Expr

/-! ## Building -/

/-- An array of keys, given as a constant or as a parameter. -/
def asPath (e : Expr) : Expr := .cast e "text[]"

def asJson (e : Expr) : Expr := .cast e "jsonb"

/-- The value of an expression at a path, or `otherwise` if there is none. -/
def getOr (e path otherwise : Expr) : Expr := .call "coalesce" [.binary .get e path, otherwise]

/-! ## Writing -/

mutual

def sql : Expr → Sql
  | .body => [.text "body"]
  | .bool b => [.text (if b then "true" else "false")]
  | .param n => [.placeholder n]
  | .literal s => [.literal s]
  | .cast e type => sql e ++ [.text ("::" ++ type)]
  | .binary op left right => sql left ++ .text (" " ++ op.symbol ++ " ") :: sql right
  | .call name args => .text (name ++ "(") :: argsSql args ++ [.text ")"]
  | .stuck _ => []

def argsSql : List Expr → Sql
  | [] => []
  | e :: rest => sql e ++ moreArgsSql rest

def moreArgsSql : List Expr → Sql
  | [] => []
  | e :: rest => .text ", " :: sql e ++ moreArgsSql rest

end

end Expr

end DocStore.Jsonb
