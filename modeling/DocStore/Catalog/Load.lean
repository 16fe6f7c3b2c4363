import DocStore.Catalog.Queries
import DocStore.Filter.Table
import DocStore.Table.Basic
import DocStore.Text.Integer

/-!
# Reading the catalog

Each discovery query is one statement whose rows become descriptors. A
row without a text schema or name fails the load, also if the filter
would drop it; a table that the filter does not allow is dropped, and so
is a second row of one name. The functions are asked for only when the
tables have been read.
-/

namespace DocStore

structure Catalog where
  tables : List TableDescriptor
  functions : List FunctionDescriptor
deriving Repr, DecidableEq

namespace Catalog

/-! ## Rows -/

/-- The text under a column that has to be there. -/
def requiredText (r : QueryResult) (row : List Cell) (column : String) :
    Except ExecutionFault String :=
  match (r.cell? row column).bind Cell.text? with
  | some s => .ok s
  | none => .error (.catalogColumn column)

/-- A primary key is a text that is not empty. -/
def tableOfRow (r : QueryResult) (row : List Cell) : Except ExecutionFault TableDescriptor := do
  let schema ← requiredText r row "schema"
  let name ← requiredText r row "name"
  return ⟨schema, name, ((r.cell? row "pk").bind Cell.text?).filter (· ≠ "")⟩

/-- The number of parameters, as an integer or as its text; none are zero. -/
def paramCount : Option Cell → Except ExecutionFault Nat
  | none => .ok 0
  | some .null => .ok 0
  | some (.int i) =>
    if 0 ≤ i.toInt then .ok i.toInt.toNat else .error (.paramCountCell (.int i))
  | some (.text s) =>
    match Chars.size? (Chars.trim s.toList) with
    | some n => .ok n
    | none => .error (.paramCountText s)
  | some cell => .error (.paramCountCell cell)

def functionOfRow (r : QueryResult) (row : List Cell) :
    Except ExecutionFault FunctionDescriptor := do
  let count ← paramCount (r.cell? row "param_count")
  let schema ← requiredText r row "schema"
  let name ← requiredText r row "name"
  return ⟨schema, name, count⟩

/-! ## Replies -/

/-- The first descriptor of every schema and name. -/
def firstOfEach : List TableDescriptor → List TableDescriptor
  | [] => []
  | d :: rest =>
    d :: (firstOfEach rest).filter fun e => !(e.schema = d.schema && e.name = d.name)

/-- The tables of a reply that the filter allows. -/
def tablesOf (filter : TableFilter) (r : QueryResult) :
    Except ExecutionFault (List TableDescriptor) := do
  let all ← r.rows.mapM (tableOfRow r)
  return firstOfEach (all.filter fun d => filter.allows d.schema d.name)

def functionsOf (r : QueryResult) : Except ExecutionFault (List FunctionDescriptor) :=
  r.rows.mapM (functionOfRow r)

/-! ## Queries -/

/-- A statement, and how its reply is read. -/
structure Query (α : Type) where
  statement : Statement
  read : QueryResult → Except ExecutionFault α

/-- Sends the statement and reads the reply. -/
def Query.ask {α : Type} (q : Query α) : Call α := do
  let reply ← Call.send q.statement
  ExceptT.mk (.done ((q.read reply).mapError .execution))

def tablesQuery (filter : TableFilter) : Query (List TableDescriptor) where
  statement := ⟨if filter.whitelist.isSome then whitelistSql else tablesSql, filter.params, false⟩
  read := tablesOf filter

def functionsQuery : Query (List FunctionDescriptor) where
  statement := ⟨functionsSql, [], false⟩
  read := functionsOf

/-! ## Loading -/

def load (filter : TableFilter) : Call Catalog := do
  let tables ← (tablesQuery filter).ask
  let functions ← functionsQuery.ask
  return ⟨tables, functions⟩

end Catalog

end DocStore
