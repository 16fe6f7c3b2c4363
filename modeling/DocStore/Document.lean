import DocStore.Error
import DocStore.Json.Reader
import DocStore.Statement
import DocStore.Text.Integer
import DocStore.Text.Split

/-!
# Documents

A document is the members of a JSON object, its id among them. It is
stored as a row of an id and a body; the body comes back as JSON or as
its text, and the id of the row takes the place of whatever the body has
under that key.
-/

namespace DocStore

structure Document where
  members : Json.Members

namespace Document

/-- The column of the id, and the key under which a document shows it. -/
def idColumn : String := "id"

def bodyColumn : String := "body"

def id? (d : Document) : Option Json := Entries.get? idColumn d.members

def toJson (d : Document) : Json := .obj d.members

def text (d : Document) : String := d.toJson.text

/-! ## Fields by path -/

/-- One step into a value: a member of an object, or an item of an array
by its index. -/
def child? (j : Json) (key : String) : Option Json :=
  match j with
  | .obj members => Entries.get? key members
  | .arr items => (Chars.size? key.toList).bind fun i => items[i]?
  | _ => none

/-- The value at a dotted path, whose parts are taken as they are. -/
def pointer? (d : Document) (path : String) : Option Json :=
  (Text.splitOn '.' path).foldlM child? d.toJson

/-! ## From rows -/

def bodyValue : Cell → Except Malformation Json
  | .text s =>
    match Json.read? s with
    | some j => .ok j
    | none => .error .notJson
  | .json j => .ok j
  | cell => .error (.bodyType cell.typeName)

/-- The members of a body cell, which has to hold an object. -/
def bodyMembers (cell : Cell) : Except Malformation Json.Members := do
  match ← bodyValue cell with
  | .obj members => return members
  | j => throw (.bodyNotAnObject j)

/-- The cell of a row under a column that has to be there. -/
def column (r : QueryResult) (row : List Cell) (name : String) : Except Malformation Cell :=
  match r.cell? row name with
  | some cell => .ok cell
  | none => .error (.noColumn name)

def ofRow (r : QueryResult) (row : List Cell) : Except Malformation Document := do
  let id ← column r row idColumn
  let body ← column r row bodyColumn
  return ⟨Entries.insert idColumn id.toJson (← bodyMembers body)⟩

def all (r : QueryResult) : Except Malformation (List Document) := r.rows.mapM (ofRow r)

def first (r : QueryResult) : Except Malformation (Option Document) :=
  match r.rows with
  | [] => .ok none
  | row :: _ => (ofRow r row).map some

end Document

end DocStore
