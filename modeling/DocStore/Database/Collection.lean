import DocStore.Database.Basic
import DocStore.Table.Save

/-!
# Collections

A collection is a table of documents, named `table` or `schema.table`.
The first document that is saved to one creates it, unless a table is
bound under its name: a schema if it is not the default one, a table of
an id and a body, and an index for searching the text. Only when all
statements have succeeded is the table bound.
-/

namespace DocStore.Database

/-! ## Names -/

/-- The schema and the name of a collection, trimmed; neither may be empty,
and only one dot may stand between them. -/
def collection (defaultSchema name : String) : Except Refusal TableDescriptor :=
  let (schema, table) := match Text.cut? "." name with
    | some (schema, table) => (Text.trim schema, Text.trim table)
    | none => (defaultSchema, Text.trim name)
  if schema = "" || table = "" || '.' ∈ table.toList then .error (.badCollection name)
  else .ok ⟨schema, table, none⟩

/-! ## Statements -/

def schemaSql (defaultSchema : String) (d : TableDescriptor) : List Sql :=
  if d.schema = defaultSchema then []
  else [[.text "create schema if not exists ", .name d.schema]]

def tableSql (defaultSchema : String) (d : TableDescriptor) : Sql :=
  .text "create table if not exists " :: Sql.qualified defaultSchema d.schema d.name
    ++ [.text " (id text primary key, body jsonb not null)"]

def indexSql (defaultSchema : String) (d : TableDescriptor) : Sql :=
  .text "create index if not exists "
    :: .name (searchIndexName (qualifiedName defaultSchema d.schema d.name))
    :: .text " on " :: Sql.qualified defaultSchema d.schema d.name
    ++ [.text " using gin (to_tsvector('simple', body::text))"]

def creation (defaultSchema : String) (d : TableDescriptor) : List Sql :=
  schemaSql defaultSchema d ++ [tableSql defaultSchema d, indexSql defaultSchema d]

def creationTexts (db : Database) (name : String) : Except Refusal (List String) := do
  let d ← collection db.config.defaultSchema name
  return (creation db.config.defaultSchema d).map Sql.render

/-! ## Creating and saving -/

def sendAll : List Sql → Call Unit
  | [] => return
  | sql :: rest => do
    let _ ← Call.send (.ofSql sql [] false)
    sendAll rest

def createCollection (name : String) : Action Table := do
  let defaultSchema := (← get).config.defaultSchema
  let d ← Action.check (collection defaultSchema name)
  Action.call (sendAll (creation defaultSchema d))
  bindTable d

/-- The table of a collection, which is created if no table is bound. -/
def tableFor (name : String) : Action Table := do
  match (← get).bound.table? name with
  | some table => return table
  | none => createCollection name

def isObject : Json → Bool
  | .obj _ => true
  | _ => false

def saveDocument (operation : SaveOperation) (name : String) (document : Json) :
    Action Document := do
  if !isObject document then throw (.invalid .documentNotAnObject)
  let table ← tableFor name
  Action.call (table.save operation document)

def insertDocument (name : String) (document : Json) : Action Document :=
  saveDocument .insert name document

def updateDocument (name : String) (document : Json) : Action Document :=
  saveDocument .update name document

end DocStore.Database
