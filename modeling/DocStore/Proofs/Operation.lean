import DocStore.Database.Collection
import DocStore.Proofs.Except
import DocStore.Table.Find

/-!
# Operations

What a caller can ask of a database, and of the tables and functions that
are bound to it, as data. An entity works without the database, so what
is asked of it is a call; what is asked of the database is an action,
since a collection may be bound on the way.
-/

namespace DocStore

/-- What an operation returns. -/
inductive Answer where
  | found (result : FindResult)
  | document? (d : Option Document)
  | documents (ds : List Document)
  | document (d : Document)
  | reply (r : QueryResult)
  | table (t : Table)

/-- What is asked of a table or a function. -/
inductive EntityOperation where
  | find (t : Table) (condition : Condition) (options : FindOptions)
  | findJson (t : Table) (condition : Json) (options : FindOptions)
  | findById (t : Table) (id : Cell)
  | search (t : Table) (keys : List String) (term : String)
  | save (t : Table) (operation : SaveOperation) (document : Json)
  | insert (t : Table) (document : Json)
  | update (t : Table) (document : Json)
  | updateById (t : Table) (id : Cell) (document : Json)
  | invoke (f : Function) (args : List Cell)

/-- What is asked of a database. -/
inductive Operation where
  | ofEntity (o : EntityOperation)
  | invoke (path : String) (args : List Cell)
  | saveDocument (operation : SaveOperation) (name : String) (document : Json)
  | insertDocument (name : String) (document : Json)
  | updateDocument (name : String) (document : Json)
  | createCollection (name : String)

def EntityOperation.call : EntityOperation → Call Answer
  | .find t condition options => do return .found (← t.find condition options)
  | .findJson t condition options => do return .found (← t.findJson condition options)
  | .findById t id => do return .document? (← t.findById id)
  | .search t keys term => do return .documents (← t.search keys term)
  | .save t operation document => do return .document (← t.save operation document)
  | .insert t document => do return .document (← t.insert document)
  | .update t document => do return .document (← t.update document)
  | .updateById t id document => do return .document (← t.updateById id document)
  | .invoke f args => do return .reply (← f.invoke args)

namespace Operation

def action : Operation → Action Answer
  | .ofEntity o => Action.call o.call
  | .invoke path args => do return .reply (← Action.call (Database.invoke (← get) path args))
  | .saveDocument operation name document => do
    return .document (← Database.saveDocument operation name document)
  | .insertDocument name document => do
    return .document (← Database.insertDocument name document)
  | .updateDocument name document => do
    return .document (← Database.updateDocument name document)
  | .createCollection name => do return .table (← Database.createCollection name)

/-- Carries the operation out; the database it leaves is part of the value. -/
def run {σ : Type} (host : Host σ) (o : Operation) (db : Database) (state : σ) :
    Outcome (Except DbError Answer × Database) σ :=
  (o.action.session db).run host state

end Operation

/-! ## Calls and actions in two parts -/

section Parts

variable {α β σ : Type}

def Call.run (host : Host σ) (c : Call α) (state : σ) : Outcome (Except DbError α) σ :=
  (ExceptT.run c).run host state

/-- With the requests of an earlier part in front. -/
def Outcome.afterAll (requests : List Request) (o : Outcome α σ) : Outcome α σ :=
  { o with requests := requests ++ o.requests }

@[simp] theorem Outcome.sent_afterAll (first : Outcome α σ) (second : Outcome β σ) :
    (second.afterAll first.requests).sent = first.sent ++ second.sent := by
  simp [Outcome.sent, Outcome.afterAll]

theorem Outcome.sent_of_requests {o : Outcome α σ} {statements : List Statement}
    (h : o.requests = statements.map .send) : o.sent = statements := by
  rw [Outcome.sent, h, List.filterMap_map]
  exact List.filterMap_some

theorem Call.run_bind (host : Host σ) (c : Call α) (f : α → Call β) (state : σ) :
    Call.run host (c >>= f) state =
      let first := Call.run host c state
      match first.value with
      | .ok a => (Call.run host (f a) first.state).afterAll first.requests
      | .error e => ⟨.error e, first.requests, first.state⟩ := by
  show Session.run host (ExceptT.run c >>= ExceptT.bindCont f) state = _
  rw [Session.run_bind]
  dsimp only [Call.run]
  cases (Session.run host (ExceptT.run c) state).value with
  | ok a => rfl
  | error e => simp [ExceptT.bindCont, pure]

theorem Action.session_bind (a : Action α) (f : α → Action β) (db : Database) :
    (a >>= f).session db = (a.session db >>= fun r =>
      match r.1 with
      | .ok x => (f x).session r.2
      | .error e => .done (.error e, r.2)) := by
  show (a.session db >>= _) = _
  congr 1
  funext r
  obtain ⟨r | r, db'⟩ := r <;> rfl

theorem Action.run_bind (host : Host σ) (a : Action α) (f : α → Action β) (db : Database)
    (state : σ) :
    ((a >>= f).session db).run host state =
      let first := (a.session db).run host state
      match first.value.1 with
      | .ok x => (((f x).session first.value.2).run host first.state).afterAll first.requests
      | .error e => ⟨(.error e, first.value.2), first.requests, first.state⟩ := by
  rw [session_bind, Session.run_bind]
  dsimp only
  cases ((a.session db).run host state).value.1 with
  | ok x => rfl
  | error e => simp

theorem Action.run_call (host : Host σ) (c : Call α) (db : Database) (state : σ) :
    ((Action.call c).session db).run host state =
      let out := Call.run host c state
      ⟨(out.value, db), out.requests, out.state⟩ := by
  show Session.run host (ExceptT.run c >>= fun r => .done (r, db)) state = _
  rw [Session.run_bind]
  simp [Call.run]

/-- What comes after an action only puts its value in another form. -/
theorem Action.session_return (a : Action α) (f : α → β) (db : Database) :
    Action.session (do return f (← a)) db =
      a.session db >>= fun r => .done (r.1.map f, r.2) := by
  rw [session_bind]
  congr 1
  funext r
  obtain ⟨e | x, db'⟩ := r <;> rfl

theorem Action.run_map (host : Host σ) (a : Action α) (f : α → β) (db : Database) (state : σ) :
    (Action.session (do return f (← a)) db).run host state =
      let out := (a.session db).run host state
      ⟨(out.value.1.map f, out.value.2), out.requests, out.state⟩ := by
  rw [session_return, Session.run_bind]
  simp

/-- What comes after a call only puts its value in another form. -/
theorem Call.run_return (c : Call α) (f : α → β) :
    ExceptT.run (do return f (← c)) = ExceptT.run c >>= fun r => Session.done (r.map f) := by
  show ExceptT.run c >>= _ = _
  congr 1
  funext r
  cases r <;> rfl

theorem Call.run_map (host : Host σ) (c : Call α) (f : α → β) (state : σ) :
    Call.run host (do return f (← c)) state =
      let out := Call.run host c state
      ⟨out.value.map f, out.requests, out.state⟩ := by
  rw [run, run_return, Session.run_bind]
  simp [run]

/-- The session of an action, but for the database that it leaves. -/
def Action.answered (a : Action α) (db : Database) : Session (Except DbError α) :=
  a.session db >>= fun r => .done r.1

theorem Action.answered_call (c : Call α) (db : Database) :
    (Action.call c).answered db = ExceptT.run c := by
  show (ExceptT.run c >>= fun r => Session.done (r, db)) >>= _ = _
  rw [Session.bind_assoc]
  exact Session.bind_done _

theorem Action.answered_return (a : Action α) (f : α → β) (db : Database) :
    Action.answered (do return f (← a)) db = a.answered db >>= fun r => .done (r.map f) := by
  rw [answered, session_return, answered, Session.bind_assoc, Session.bind_assoc]
  rfl

theorem Action.run_answered (host : Host σ) (a : Action α) (db : Database) (state : σ) :
    (a.answered db).run host state =
      let out := (a.session db).run host state
      ⟨out.value.1, out.requests, out.state⟩ := by
  rw [answered, Session.run_bind]
  simp

theorem Operation.run_invoke (host : Host σ) (path : String) (args : List Cell) (db : Database)
    (state : σ) :
    (Operation.invoke path args).run host db state =
      let out := Call.run host (db.invoke path args) state
      ⟨(out.value.map .reply, db), out.requests, out.state⟩ := by
  show Session.run host (Action.session (do
    return Answer.reply (← Action.call (db.invoke path args))) db) state = _
  rw [Action.run_map, Action.run_call]

end Parts

/-! ## Value and state -/

namespace Call

variable {α β σ : Type}

/-- What a call returns, and the state that it leaves. -/
def play (host : Host σ) (c : Call α) (state : σ) : Except DbError α × σ :=
  ((run host c state).value, (run host c state).state)

theorem play_bind (host : Host σ) (c : Call α) (f : α → Call β) (state : σ) :
    play host (c >>= f) state =
      match play host c state with
      | (.ok a, state) => play host (f a) state
      | (.error e, state) => (.error e, state) := by
  unfold play
  rw [run_bind]
  dsimp only
  cases (run host c state).value <;> rfl

theorem play_pure (host : Host σ) (a : α) (state : σ) : play host (pure a) state = (.ok a, state) :=
  rfl

theorem play_check (host : Host σ) (r : Except Refusal α) (state : σ) :
    play host (check r) state = (r.mapError .invalid, state) := rfl

theorem play_send (host : Host σ) (statement : Statement) (state : σ) :
    play host (send statement) state = host.execute statement state := rfl

end Call

namespace Database

variable {σ : Type}

/-! ## Collections -/

theorem session_saveDocument_of_not_object {document : Json} (h : isObject document = false)
    (operation : SaveOperation) (name : String) (db : Database) :
    (saveDocument operation name document).session db =
      .done (.error (.invalid .documentNotAnObject), db) := by
  unfold saveDocument
  rw [h]
  rfl

theorem session_tableFor (name : String) (db : Database) :
    (tableFor name).session db =
      match db.bound.table? name with
      | some table => .done (.ok table, db)
      | none => (createCollection name).session db := by
  show Action.session (match db.bound.table? name with
    | some table => pure table
    | none => createCollection name) db = _
  cases db.bound.table? name <;> rfl

/-- With the collection bound, its table saves the document. -/
theorem session_saveDocument_of_bound {document : Json} (h : isObject document = true)
    {name : String} {db : Database} {table : Table} (ht : db.bound.table? name = some table)
    (operation : SaveOperation) :
    (saveDocument operation name document).session db =
      (Action.call (table.save operation document)).session db := by
  unfold saveDocument
  rw [h]
  show Action.session (do Action.call ((← tableFor name).save operation document)) db = _
  rw [Action.session_bind, session_tableFor, ht]
  rfl

/-- Without a table, the collection is created first. -/
theorem session_saveDocument_of_not_bound {document : Json} (h : isObject document = true)
    {name : String} {db : Database} (ht : db.bound.table? name = none)
    (operation : SaveOperation) :
    (saveDocument operation name document).session db =
      Action.session (do
        Action.call ((← createCollection name).save operation document)) db := by
  unfold saveDocument
  rw [h]
  show Action.session (do Action.call ((← tableFor name).save operation document)) db = _
  rw [Action.session_bind, session_tableFor, ht, ← Action.session_bind]

theorem session_createCollection_of_error {name : String} {db : Database} {r : Refusal}
    (h : collection db.config.defaultSchema name = .error r) :
    (createCollection name).session db = .done (.error (.invalid r), db) := by
  show Action.session (do
    let d ← Action.check (collection db.config.defaultSchema name)
    Action.call (sendAll (creation db.config.defaultSchema d))
    bindTable d) db = _
  rw [h]
  rfl

/-- A collection is bound when everything that creates it has been sent. -/
theorem session_createCollection_of_ok {name : String} {db : Database} {d : TableDescriptor}
    (h : collection db.config.defaultSchema name = .ok d) :
    (createCollection name).session db =
      ExceptT.run (sendAll (creation db.config.defaultSchema d)) >>= fun
        | .ok _ => .done (.ok (.ofDescriptor db.settings d),
            db.bind (.table (.ofDescriptor db.settings d)))
        | .error e => .done (.error e, db) := by
  show Action.session (do
    let d ← Action.check (collection db.config.defaultSchema name)
    Action.call (sendAll (creation db.config.defaultSchema d))
    bindTable d) db = _
  rw [h]
  show Action.session (do
    Action.call (sendAll (creation db.config.defaultSchema d))
    bindTable d) db = _
  rw [Action.session_bind]
  show ((ExceptT.run (sendAll _) >>= fun r => Session.done (r, db)) >>= _) = _
  rw [Session.bind_assoc]
  congr 1
  funext r
  cases r <;> rfl

theorem run_createCollection (host : Host σ) {name : String} {db : Database}
    {d : TableDescriptor} (h : collection db.config.defaultSchema name = .ok d) (state : σ) :
    ((createCollection name).session db).run host state =
      let out := Call.run host (sendAll (creation db.config.defaultSchema d)) state
      match out.value with
      | .ok _ =>
        ⟨(.ok (.ofDescriptor db.settings d), db.bind (.table (.ofDescriptor db.settings d))),
          out.requests, out.state⟩
      | .error e => ⟨(.error e, db), out.requests, out.state⟩ := by
  rw [session_createCollection_of_ok h, Session.run_bind]
  dsimp only [Call.run]
  cases (Session.run host (ExceptT.run (sendAll (creation db.config.defaultSchema d))) state).value
  · simp
  · simp

end Database

end DocStore
