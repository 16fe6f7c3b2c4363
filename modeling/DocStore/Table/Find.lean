import DocStore.Condition.Compile
import DocStore.Document
import DocStore.Table.Basic

/-!
# Finding documents

A search compiles its condition and sends one `select`. A lookup by
primary key answers with at most one document, every other search with
all documents of the reply, in order. A full-text search sends one
`select` as well and always answers with all documents.
-/

namespace DocStore

/-- Order, page and columns of a search. -/
structure FindOptions where
  /-- SQL text to order by; the primary key if not given. -/
  order : Option String := none
  limit : Option Nat := none
  offset : Option Nat := none
  /-- Names of columns; all columns if not given or empty. -/
  columns : Option (List String) := none
deriving Repr, DecidableEq

inductive FindResult where
  | one (document : Option Document)
  | many (documents : List Document)

namespace FindResult

def toList : FindResult → List Document
  | .one document => document.toList
  | .many documents => documents

def first? (r : FindResult) : Option Document := r.toList.head?

end FindResult

namespace Table

/-! ## By condition -/

def columnsSql : Option (List String) → Sql
  | none => [.text "*"]
  | some [] => [.text "*"]
  | some columns => Sql.joined ", " (columns.map fun name => [.name name])

def orderSql (t : Table) : Option String → Sql
  | none => [.name t.primaryKey]
  | some order => [.text order]

def findSql (t : Table) (p : Predicate) (options : FindOptions) : Sql :=
  .text "select " :: columnsSql options.columns ++ .text " from " :: t.sqlName ++ p.whereSql
    ++ .text " order by " :: t.orderSql options.order
    ++ [.text s!" limit {options.limit.getD t.settings.findLimit}",
      .text s!" offset {options.offset.getD 0}"]

def findResult (p : Predicate) (r : QueryResult) : Except Malformation FindResult :=
  if p.lookup then (Document.first r).map .one else (Document.all r).map .many

def find (t : Table) (condition : Condition) (options : FindOptions) : Call FindResult := do
  let predicate ← Call.check (condition.compile t.primaryKey)
  let reply ← Call.send (.ofSql (t.findSql predicate options) predicate.params predicate.lookup)
  Call.decode (findResult predicate reply)

def findJson (t : Table) (condition : Json) (options : FindOptions) : Call FindResult := do
  t.find (← Call.check (Condition.ofJson condition)) options

def findById (t : Table) (id : Cell) : Call (Option Document) := do
  return (← t.find (.byId id) {}).first?

/-! ## By text -/

/-- The text that is searched: the whole body, one field, or several joined
by spaces. -/
def searchedSql (keys : List String) : Except Refusal Sql :=
  if keys = ["*"] then .ok [.text "body::text"]
  else do
    let fields ← keys.mapM fun key => return DocPath.field (← DocPath.segments key) true
    match fields with
    | [field] => return field
    | fields => return .text "concat(" :: Sql.joined ", ' ', " fields ++ [.text ")"]

def searchSql (t : Table) (searched : Sql) : Sql :=
  .text "select * from " :: t.sqlName ++ .text " where to_tsvector('simple', " :: searched
    ++ [.text ") @@ to_tsquery('simple', ", .placeholder 1, .text ")"]

/-- Finds the documents in which some fields, or with `*` the whole body,
match the terms of a text query. -/
def search (t : Table) (keys : List String) (term : String) : Call (List Document) := do
  if keys = [] || Text.isBlank term then throw (.invalid .nothingToSearch)
  let searched ← Call.check (searchedSql keys)
  let reply ← Call.send (.ofSql (t.searchSql searched) [.text term] false)
  Call.decode (Document.all reply)

end Table

end DocStore
