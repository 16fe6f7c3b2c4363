import DocStore.Json.Basic
import DocStore.Statement
import DocStore.Table.Basic

/-!
# A database in memory

Just enough of a database to hold documents: stored tables under their
quoted names, each a body per id in the order of ids, and the rows that
the discovery queries report. A table that is added is reported and
stored; tables that are created later are stored only.
-/

namespace DocStore

abbrev Rows := Entries String Json

structure Memory where
  tables : Entries String Rows := []
  reportedTables : List TableDescriptor := []
  reportedFunctions : List (String × String × Int64) := []
  /-- If given, every statement but the discovery queries fails with it. -/
  failure : Option String := none

namespace Memory

/-- The name of a stored table; the schema `public` is left out. -/
def storedName (schema name : String) : String :=
  if schema = "public" then "\"" ++ name ++ "\"" else "\"" ++ schema ++ "\".\"" ++ name ++ "\""

/-- A stored table, created empty if it is not there. -/
def create (m : Memory) (name : String) : Memory :=
  match m.tables.get? name with
  | some _ => m
  | none => { m with tables := m.tables.insert name [] }

/-- Adds a table that is reported and stored. -/
def addTable (m : Memory) (d : TableDescriptor) : Memory :=
  { m.create (storedName d.schema d.name) with reportedTables := m.reportedTables ++ [d] }

def addFunction (m : Memory) (schema name : String) (paramCount : Int64) : Memory :=
  { m with reportedFunctions := m.reportedFunctions ++ [(schema, name, paramCount)] }

def hasTable (m : Memory) (name : String) : Bool := m.tables.contains name

def body? (m : Memory) (table id : String) : Option Json :=
  (m.tables.get? table).bind fun rows => rows.get? id

def store (m : Memory) (table : String) (rows : Rows) : Memory :=
  { m with tables := m.tables.insert table rows }

theorem body?_store (m : Memory) (table : String) (rows : Rows) (other id : String) :
    (m.store table rows).body? other id =
      if table = other then rows.get? id else m.body? other id := by
  by_cases h : table = other
  · simp [body?, store, h]
  · simp [body?, store, Entries.get?_insert, h]

/-! ## Replies -/

def tableRows (m : Memory) : QueryResult where
  columns := ["schema", "name", "pk"]
  rows := m.reportedTables.map fun d =>
    [.text d.schema, .text d.name, d.primaryKey.elim .null .text]

def functionRows (m : Memory) : QueryResult where
  columns := ["schema", "name", "param_count"]
  rows := m.reportedFunctions.map fun (schema, name, count) =>
    [.text schema, .text name, .int count]

def documentRows (rows : Rows) : QueryResult where
  columns := ["id", "body"]
  rows := rows.map fun (id, body) => [.text id, .json body]

end Memory

end DocStore
