import DocStore.Cell
import DocStore.Sql.Piece

/-!
# Predicates

A predicate is the condition of a `where` clause together with the values
of its placeholders. It is assembled from fragments, of which each binds
one value or none; the assembly itself hands out the ordinals, so the
placeholders are numbered from one without gaps and `params` is in their
order whatever the fragments are.
-/

namespace DocStore

inductive Target where
  | all
  | column
  | body
deriving Repr, DecidableEq

structure Predicate where
  /-- The condition without `where`; empty if every row matches. -/
  clause : Sql
  params : List Cell
  /-- An equality test on the primary key: at most one row matches. -/
  lookup : Bool
  target : Target

/-- One condition of a conjunction. -/
inductive Fragment where
  | free (sql : Sql)
  /-- Binds `value`, and is written around its placeholder. -/
  | bound (value : Cell) (write : Sql.Piece → Sql)

namespace Fragment

/-- The fragments in writing, the placeholders numbered from `next` on. -/
def numbered (next : Nat) : List Fragment → List Sql
  | [] => []
  | .free sql :: rest => sql :: numbered next rest
  | .bound _ write :: rest => write (.placeholder next) :: numbered (next + 1) rest

def values : List Fragment → List Cell
  | [] => []
  | .free _ :: rest => values rest
  | .bound value _ :: rest => value :: values rest

end Fragment

namespace Predicate

def matchAll : Predicate := ⟨[], [], false, .all⟩

/-- All fragments must hold; without any, every row matches. -/
def conjunction (fragments : List Fragment) (lookup : Bool) (target : Target) : Predicate :=
  if fragments.isEmpty then matchAll
  else
    { clause := Sql.joined " and " (Fragment.numbered 1 fragments)
      params := Fragment.values fragments
      lookup, target }

def clauseText (p : Predicate) : String := p.clause.render

def isMatchAll (p : Predicate) : Bool := p.clauseText = ""

/-- The clause with `where` before it, ready to be put into a statement. -/
def whereSql (p : Predicate) : Sql := if p.isMatchAll then [] else .text " where " :: p.clause

end Predicate

end DocStore
