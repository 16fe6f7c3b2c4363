import DocStore.Catalog.Queries
import DocStore.Jsonb.Eval
import DocStore.Memory.Basic
import DocStore.Session

/-!
# Carrying statements out

The database in memory works on the text of a statement: it tells the
kinds of statement apart by how they begin, takes the name of the table
as the first word, and finds the expression of an update and the clause
of a search between fixed words. What does not have one of the expected
forms is reported as unsupported. A statement that fails changes nothing.
-/

namespace DocStore.Memory

/-! ## Parameters -/

def fail {α : Type} (fault : ExecutionFault) : Except DbError α := .error (.execution fault)

/-- A parameter as text; integers are written out. -/
def textParam (params : List Cell) (position : Nat) : Except DbError String :=
  match params[position]? with
  | some (.text s) => .ok s
  | some (.int i) => .ok (Cell.int i).display
  | _ => fail (.wrongParameter (position + 1))

/-- A parameter as JSON, also given as its text. -/
def jsonParam (params : List Cell) (position : Nat) : Except DbError Json :=
  match params[position]? with
  | some (.json j) => .ok j
  | some (.text s) =>
    match Json.read? s with
    | some j => .ok j
    | none => .error (.malformed .notJson)
  | _ => fail (.wrongParameter (position + 1))

/-- A stored table, which has to be there. -/
def relation (m : Memory) (name : String) : Except DbError Rows :=
  match m.tables.get? name with
  | some rows => .ok rows
  | none => fail (.noRelation name)

/-! ## Forms of statements -/

/-- The statements that are told apart, with what follows their beginning. -/
inductive Form where
  /-- Schemas and indexes leave no trace. -/
  | ignored
  | createTable (rest : String)
  | insert (rest : String)
  | update (rest : String)
  | select (rest : String)
  | other

def Form.of (sql : String) : Form :=
  if (Text.strip? "create schema" sql).isSome || (Text.strip? "create index" sql).isSome then
    .ignored
  else if let some rest := Text.strip? "create table if not exists " sql then .createTable rest
  else if let some rest := Text.strip? "insert into " sql then .insert rest
  else if let some rest := Text.strip? "update " sql then .update rest
  else if let some rest := Text.strip? "select * from " sql then .select rest
  else .other

/-- The expression assigned in an update, up to the last `where`. -/
def assigned? (sql : String) : Option String := do
  let (_, rest) ← Text.cut? " set body = " sql
  let (expression, _) ← Text.cutLast? " where " rest
  return expression

/-- Does the update replace the body by its second parameter? -/
def replacesBody (sql : String) : Bool := (Text.cut? "set body = $2 where" sql).isSome

/-- The clause of a search, up to its order. -/
def clause? (rest : String) : Option String :=
  (Text.cut? " where " rest).map fun (_, clause) =>
    match Text.cut? " order by " clause with
    | some (clause, _) => clause
    | none => clause

/-- The field in a comparison of its text with the first parameter. -/
def textField? (clause : String) : Option String := do
  let rest ← Chars.strip? "(body ->> '".toList clause.toList
  let field ← Chars.stripEnd? "') = $1".toList rest
  return .ofList field

/-! ## Statements -/

def runInsert (m : Memory) (rest : String) (params : List Cell) :
    Except DbError (QueryResult × Memory) := do
  let table := Text.firstWord rest
  let rows ← m.relation table
  let id ← textParam params 0
  let body ← jsonParam params 1
  if rows.contains id then fail (.duplicateKey id)
  else return (documentRows [(id, body)], m.store table (rows.insert id body))

def updatedBody (sql : String) (current : Json) (params : List Cell) : Except DbError Json :=
  if replacesBody sql then jsonParam params 1
  else
    match assigned? sql with
    | none => fail (.unsupportedUpdate sql)
    | some expression => do
      match ← Jsonb.evaluate expression.toList current params with
      | some body => return body
      | none => fail .nullBody

/-- Changes a stored row; without one there is nothing to change. -/
def runUpdate (m : Memory) (sql rest : String) (params : List Cell) :
    Except DbError (QueryResult × Memory) := do
  let table := Text.firstWord rest
  let rows ← m.relation table
  let id ← textParam params 0
  match rows.get? id with
  | none => return (documentRows [], m)
  | some current =>
    let body ← updatedBody sql current params
    return (documentRows [(id, body)], m.store table (rows.insert id body))

/-- The rows that a clause selects: all of them, the one with an id, or
those with a text in a field. -/
def selectRows (rows : Rows) (clause : Option String) (params : List Cell) :
    Except DbError Rows :=
  match clause with
  | none => .ok rows
  | some clause =>
    if clause = "\"id\" = $1" then do
      let id ← textParam params 0
      return (rows.get? id).toList.map fun body => (id, body)
    else
      match textField? clause with
      | none => fail (.unsupportedPredicate clause)
      | some field => do
        let wanted ← textParam params 0
        return rows.filter fun row => (row.2.member? field).bind Json.text? == some wanted

def runSelect (m : Memory) (rest : String) (params : List Cell) : Except DbError QueryResult := do
  let rows ← m.relation (Text.firstWord rest)
  return documentRows (← selectRows rows (clause? rest) params)

def runStatement (m : Memory) (sql : String) (params : List Cell) :
    Except DbError (QueryResult × Memory) :=
  match Form.of sql with
  | .ignored => .ok (.empty, m)
  | .createTable rest => .ok (.empty, m.create (Text.firstWord rest))
  | .insert rest => m.runInsert rest params
  | .update rest => m.runUpdate sql rest params
  | .select rest => (m.runSelect rest params).map (·, m)
  | .other => fail (.unsupportedStatement sql)

/-! ## The whole -/

def execute (m : Memory) (statement : Statement) : Except DbError QueryResult × Memory :=
  if statement.sql = Catalog.tablesSql || statement.sql = Catalog.whitelistSql then
    (.ok m.tableRows, m)
  else if statement.sql = Catalog.functionsSql then (.ok m.functionRows, m)
  else
    match m.failure with
    | some message => (.error (.reported .execution message), m)
    | none =>
      match m.runStatement statement.sql statement.params with
      | .ok (reply, m) => (.ok reply, m)
      | .error e => (.error e, m)

end DocStore.Memory
