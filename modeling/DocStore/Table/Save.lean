import DocStore.Document
import DocStore.Patch
import DocStore.Table.Basic

/-!
# Saving documents

A document is saved by one statement. An insert takes the id from the
field of the primary key or has a new one made; an update needs the id,
and either changes one place (`Patch`) or replaces the whole body. In
both cases the id is kept out of the body. The stored row comes back as
a document; no row means that there is no document with that id.
-/

namespace DocStore

inductive SaveOperation where
  | insert
  | update
deriving Repr, DecidableEq

namespace SaveOperation

def name : SaveOperation → String
  | .insert => "insert"
  | .update => "update"

def ofName (name : String) : Except Refusal SaveOperation :=
  if name = "insert" then .ok .insert
  else if name = "update" then .ok .update
  else .error (.unknownOperation name)

@[simp] theorem ofName_name (op : SaveOperation) : ofName op.name = .ok op := by
  cases op <;> rfl

end SaveOperation

namespace Table

def fields : Json → Except Refusal Json.Members
  | .obj members => .ok members
  | document => .error (.notAnObject document)

/-- The id in the fields of a document: a scalar that is not blank, or none. -/
def suppliedId (primaryKey : String) (fields : Json.Members) : Except Refusal (Option Cell) :=
  match ((Entries.get? primaryKey fields).map Cell.ofJson).filter fun id => !id.isBlank with
  | some (.json key) => .error (.keyNotScalar key)
  | id => .ok id

/-! ## Statements -/

def insertSql (t : Table) : Sql :=
  .text "insert into " :: t.sqlName
    ++ [.text " (", .name t.primaryKey, .text ", body) values (", .placeholder 1, .text ", ",
      .placeholder 2, .text ") returning *"]

def insertion (t : Table) (id : Cell) (body : Json.Members) : Statement :=
  .ofSql t.insertSql [id, .json (.obj body)] true

/-- The update of the document with an id: a patch, or a new body. -/
def updating (t : Table) (id : Cell) (update : Json.Members) : Except Refusal Statement := do
  match ← Patch.ofUpdate update with
  | some patch =>
    let (sql, params) ← patch.statement t.sqlName t.primaryKey id
    return .ofSql sql params true
  | none =>
    let sql := Patch.updateSql t.sqlName t.primaryKey [.placeholder 2]
    return .ofSql sql [id, .json (.obj update)] true

/-! ## Saving -/

/-- Sends a statement that stores one row, and returns the row. -/
def store (statement : Statement) (id : Cell) : Call Document := do
  match ← Call.decode (Document.first (← Call.send statement)) with
  | some document => return document
  | none => throw (.documentNotFound id.display)

/-- The id for an insertion: the supplied one, or a new one. -/
def insertId : Option Cell → Call Cell
  | some id => return id
  | none => do
    let id ← Call.newId
    if id.isBlank then throw (.invalid .emptyGeneratedId)
    return id

def save (t : Table) (operation : SaveOperation) (document : Json) : Call Document := do
  let fields ← Call.check (fields document)
  let supplied ← Call.check (suppliedId t.primaryKey fields)
  let body := Entries.erase t.primaryKey fields
  match operation with
  | .insert =>
    let id ← insertId supplied
    store (t.insertion id body) id
  | .update =>
    match supplied with
    | none => throw (.invalid (.keyMissing t.primaryKey))
    | some id => store (← Call.check (t.updating id body)) id

def insert (t : Table) (document : Json) : Call Document := t.save .insert document

def update (t : Table) (document : Json) : Call Document := t.save .update document

/-- Updates the document with an id, whatever id the document itself has. -/
def updateById (t : Table) (id : Cell) (document : Json) : Call Document := do
  let fields ← Call.check (fields document)
  t.save .update (.obj (Entries.insert t.primaryKey id.toJson fields))

end Table

end DocStore
