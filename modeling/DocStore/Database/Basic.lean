import DocStore.Catalog.Load
import DocStore.Config
import DocStore.Namespace

/-!
# Databases

A database is a configuration and the namespace of everything bound so
far. An `Action` is a call that may bind entities: it works on a
database, and what it has bound stays bound if it fails later.

Loading reads the whole reply of a query before anything is bound, so a
load that fails binds nothing. But an action that binds functions can also
break off, at a function that cannot be made. It has neither a value nor an
error then, which is the value `none`, and what it has bound by then stays.
-/

namespace DocStore

structure Database where
  config : Config
  bound : Namespace

namespace Database

def ofConfig (config : Config) : Database := ⟨config, .empty config.defaultSchema⟩

def settings (db : Database) : Settings := ⟨db.config.defaultSchema, db.config.findLimit⟩

def bind (db : Database) (e : Entity) : Database := { db with bound := db.bound.bind e }

def bindTables (db : Database) (tables : List TableDescriptor) : Database :=
  { db with bound := db.bound.bindAll (tables.map fun d => .table (.ofDescriptor db.settings d)) }

/-- Binds the functions in order, up to the first that cannot be made. -/
def bindFunctions (db : Database) : List FunctionDescriptor → Option Unit × Database
  | [] => (some (), db)
  | d :: rest =>
    match Function.ofDescriptor? db.settings d with
    | some function => (db.bind (.function function)).bindFunctions rest
    | none => (none, db)

/-- Binds the tables first. -/
def bindCatalog (db : Database) (catalog : Catalog) : Option Unit × Database :=
  (db.bindTables catalog.tables).bindFunctions catalog.functions

end Database

/-! ## Actions -/

/-- A call on a database that may change what is bound. -/
abbrev Action := ExceptT DbError (StateT Database Session)

namespace Action

/-- A call that leaves the database as it is. -/
def call {α : Type} (c : Call α) : Action α := ExceptT.mk (StateT.lift c.run)

def check {α : Type} (result : Except Refusal α) : Action α := call (Call.check result)

/-- Plays an action; the database it leaves behind is part of the session. -/
def session {α : Type} (a : Action α) (db : Database) : Session (Except DbError α × Database) :=
  StateT.run (ExceptT.run a) db

end Action

namespace Database

/-! ## Entities -/

def bindTable (d : TableDescriptor) : Action Table := do
  let db ← get
  let table := Table.ofDescriptor db.settings d
  set (db.bind (.table table))
  return table

def bindFunction (d : FunctionDescriptor) : Action (Option Function) :=
  modifyGet fun db =>
    match Function.ofDescriptor? db.settings d with
    | some function => (some function, db.bind (.function function))
    | none => (none, db)

/-- What is found under a path, or the error that names the path. -/
def found {α : Type} (path : String) : Option α → Except DbError α
  | some a => .ok a
  | none => .error (.entityNotFound path)

def entity (db : Database) (path : String) : Except DbError Entity :=
  found path (db.bound.resolve? path)

def table (db : Database) (path : String) : Except DbError Table :=
  found path (db.bound.table? path)

def function (db : Database) (path : String) : Except DbError Function :=
  found path (db.bound.function? path)

/-! ## Loading -/

/-- Asks for all that is to be bound, then binds it. -/
def loading {α β : Type} (ask : Config → Call α) (bind : α → Database → β × Database) :
    Action β := do
  let found ← Action.call (ask (← get).config)
  modifyGet (bind found)

def loadTables : Action Nat :=
  loading (fun config => (Catalog.tablesQuery config.filter).ask) fun tables db =>
    (tables.length, db.bindTables tables)

def loadFunctions : Action (Option Nat) :=
  loading (fun _ => Catalog.functionsQuery.ask) fun functions db =>
    (db.bindFunctions functions).map (Option.map fun _ => functions.length) id

def load : Action (Option Unit) :=
  loading (fun config => Catalog.load config.filter) fun catalog db => db.bindCatalog catalog

def send (sql : String) (params : List Cell) : Call QueryResult := Call.send ⟨sql, params, false⟩

def invoke (db : Database) (path : String) (args : List Cell) : Call QueryResult := do
  (← ExceptT.mk (.done (db.function path))).invoke args

/-! ## Opening -/

def opened (config : Config) : Call (Option Database) :=
  ExceptT.mk do
    let (result, db) ← Action.session load (ofConfig config)
    return result.map fun loaded => loaded.map fun _ => db

/-- Did the attempt take longer than allowed? -/
def isLate (config : Config) (attempt : Attempt) : Bool :=
  match attempt.delay with
  | some delay => config.connectTimeout < delay
  | none => true

def connect (config : Config) : Call (Option Database) := do
  ExceptT.mk (.done (config.validate.mapError .config))
  let url ← ExceptT.mk (.done (config.url.mapError .config))
  let attempt ← Call.connect url
  if isLate config attempt then
    throw (.execution (.timedOut (Duration.text config.connectTimeout) config.shownUrl))
  ExceptT.mk (.done attempt.result)
  opened config

end Database

end DocStore
