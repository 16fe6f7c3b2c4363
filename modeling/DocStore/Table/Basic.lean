import DocStore.Session
import DocStore.Sql.Piece

/-!
# Tables, functions and what they share

The catalog reports tables and functions by schema and name
(`TableDescriptor`, `FunctionDescriptor`). Bound to a database they know
its settings as well, and from these their qualified names. A function
can only be made if its placeholders can be written out.
-/

namespace DocStore

/-! ## Descriptors -/

/-- The primary key of a table for which none is reported. -/
def defaultPrimaryKey : String := "id"

structure TableDescriptor where
  schema : String
  name : String
  primaryKey : Option String
deriving Repr, DecidableEq

structure FunctionDescriptor where
  schema : String
  name : String
  paramCount : Nat
deriving Repr, DecidableEq

/-! ## Bound entities -/

structure Settings where
  defaultSchema : String
  /-- The limit of a search that gives none. -/
  findLimit : Nat
deriving Repr, DecidableEq

structure Table where
  schema : String
  name : String
  primaryKey : String
  settings : Settings
deriving Repr, DecidableEq

namespace Table

def ofDescriptor (settings : Settings) (d : TableDescriptor) : Table :=
  ⟨d.schema, d.name, d.primaryKey.getD defaultPrimaryKey, settings⟩

/-- `name` in the default schema, `schema.name` elsewhere. -/
def qualifiedName (t : Table) : String :=
  DocStore.qualifiedName t.settings.defaultSchema t.schema t.name

def sqlName (t : Table) : Sql := .qualified t.settings.defaultSchema t.schema t.name

end Table

structure Function where
  schema : String
  name : String
  paramCount : Nat
  settings : Settings
deriving Repr, DecidableEq

namespace Function

/-- The most texts that a list can have: it takes at most `2 ^ 63 - 1` bytes, and 24 of
them for each text besides its characters. -/
def maxPlaceholders : Nat := 9223372036854775807 / 24

/-- The placeholders are written out in a list when the function is made. If they are too
many for one list, there is no function, and the program breaks off. -/
def ofDescriptor? (settings : Settings) (d : FunctionDescriptor) : Option Function :=
  if d.paramCount ≤ maxPlaceholders then some ⟨d.schema, d.name, d.paramCount, settings⟩
  else none

def qualifiedName (f : Function) : String :=
  DocStore.qualifiedName f.settings.defaultSchema f.schema f.name

def placeholders (f : Function) : List Sql :=
  (List.range f.paramCount).map fun n => [.placeholder (n + 1)]

def sql (f : Function) : Sql :=
  .text "select * from " :: Sql.qualified f.settings.defaultSchema f.schema f.name
    ++ .text "(" :: Sql.joined "," f.placeholders ++ [.text ")"]

/-- Calls the function with one argument per parameter. -/
def invoke (f : Function) (args : List Cell) : Call QueryResult := do
  if args.length = f.paramCount then Call.send (.ofSql f.sql args false)
  else throw (.invalid (.argumentCount f.qualifiedName f.paramCount args.length))

end Function

end DocStore
