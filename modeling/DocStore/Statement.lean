import DocStore.Cell
import DocStore.Sql.Piece

/-!
# Statements and their results

What is sent to the database: SQL text with numbered placeholders, one
parameter per ordinal, and whether at most one row is expected back.

What comes back: rows of cells, in the order they were produced, and the
names of their columns. A row may be shorter than the list of columns and
a name may occur twice; a cell is found under the first column of its
name.
-/

namespace DocStore

structure Statement where
  sql : String
  params : List Cell
  single : Bool

namespace Statement

def ofSql (sql : Sql) (params : List Cell) (single : Bool) : Statement :=
  ⟨sql.render, params, single⟩

end Statement

structure QueryResult where
  columns : List String
  rows : List (List Cell)
deriving Inhabited

namespace QueryResult

def empty : QueryResult := ⟨[], []⟩

def columnIndex? (r : QueryResult) (name : String) : Option Nat :=
  r.columns.findIdx? (· == name)

/-- The cell of `row` under the first column called `name`. -/
def cell? (r : QueryResult) (row : List Cell) (name : String) : Option Cell :=
  (r.columnIndex? name).bind fun i => row[i]?

end QueryResult

end DocStore
