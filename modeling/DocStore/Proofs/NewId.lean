import DocStore.Proofs.Creation

/-!
# New ids in turn

A new id is asked for by an insertion of a document without one, once the
collection is there, and by nothing else. So in whatever order a database is
used, the ids that are asked for and the insertions that lack one are in step
(`ids_in_turn`): none is skipped, and none is used twice.

A session that makes no request for an id is recognized by its tree
(`IdFree`), part by part. What is left are the insertions without an id,
of which the request for it is the first one.

A blank id is refused and no insertion sent. If the collection had to be
created, that has been done by then.

Main statement: `ids_in_turn`.
-/

namespace DocStore

variable {α β σ : Type}

/-! ## Requests for ids -/

/-- How often a new id was asked for. -/
def Outcome.idsAsked (o : Outcome α σ) : Nat :=
  o.requests.countP fun
    | .newId => true
    | _ => false

namespace Session

/-- The new ids that a session is given, in order. -/
def newIds (host : Host σ) : Session α → σ → List Cell
  | .done _, _ => []
  | .connect url next, state =>
    newIds host (next (host.connect url state).1) (host.connect url state).2
  | .send statement next, state =>
    newIds host (next (host.execute statement state).1) (host.execute statement state).2
  | .newId next, state =>
    (host.newId state).1 :: newIds host (next (host.newId state).1) (host.newId state).2

theorem newIds_bind (host : Host σ) (s : Session α) (f : α → Session β) (state : σ) :
    (s >>= f).newIds host state =
      s.newIds host state ++ (f (s.run host state).value).newIds host (s.run host state).state := by
  induction s generalizing state with
  | done a => rfl
  | connect url next ih => exact ih _ _
  | send statement next ih => exact ih _ _
  | newId next ih => exact congrArg (List.cons _) (ih _ _)

/-- To put what is returned in another form asks for no id. -/
theorem newIds_map (host : Host σ) (s : Session α) (f : α → β) (state : σ) :
    (s >>= fun a => .done (f a)).newIds host state = s.newIds host state := by
  rw [newIds_bind]
  exact List.append_nil _

/-- There is one for every request. -/
theorem length_newIds (host : Host σ) (s : Session α) (state : σ) :
    (s.newIds host state).length = (s.run host state).idsAsked := by
  induction s generalizing state with
  | done a => rfl
  | connect url next ih => exact ih _ _
  | send statement next ih => exact ih _ _
  | newId next ih =>
    exact (congrArg (· + 1) (ih _ _)).trans (List.countP_cons_of_pos rfl).symm

/-- Asks for no id, whatever is answered. -/
def IdFree : Session α → Prop
  | .done _ => True
  | .connect _ next => ∀ attempt, IdFree (next attempt)
  | .send _ next => ∀ reply, IdFree (next reply)
  | .newId _ => False

theorem IdFree.bind {s : Session α} {f : α → Session β} (hs : s.IdFree)
    (hf : ∀ a, (f a).IdFree) : (s >>= f).IdFree := by
  induction s with
  | done a => exact hf a
  | connect url next ih => exact fun attempt => ih attempt (hs attempt)
  | send statement next ih => exact fun reply => ih reply (hs reply)
  | newId next => exact hs.elim

theorem IdFree.newIds_eq {s : Session α} (h : s.IdFree) (host : Host σ) (state : σ) :
    s.newIds host state = [] := by
  induction s generalizing state with
  | done a => rfl
  | connect url next ih => exact ih _ (h _) _
  | send statement next ih => exact ih _ (h _) _
  | newId next => exact h.elim

end Session

namespace Call

def newIds (host : Host σ) (c : Call α) (state : σ) : List Cell :=
  (ExceptT.run c).newIds host state

def IdFree (c : Call α) : Prop := (ExceptT.run c).IdFree

theorem newIds_bind (host : Host σ) (c : Call α) (f : α → Call β) (state : σ) :
    newIds host (c >>= f) state = newIds host c state ++
      match (run host c state).value with
      | .ok a => newIds host (f a) (run host c state).state
      | .error _ => [] := by
  show Session.newIds host (ExceptT.run c >>= ExceptT.bindCont f) state = _
  rw [Session.newIds_bind]
  unfold run
  cases ((ExceptT.run c).run host state).value <;> rfl

/-! ## Calls that need no id -/

theorem idFree_done (r : Except DbError α) : IdFree (ExceptT.mk (.done r)) := trivial

theorem idFree_send (statement : Statement) : IdFree (send statement) := fun _ => trivial

theorem IdFree.bind {c : Call α} {f : α → Call β} (hc : IdFree c) (hf : ∀ a, IdFree (f a)) :
    IdFree (c >>= f) := by
  refine Session.IdFree.bind hc fun r => ?_
  cases r with
  | error e => trivial
  | ok a => exact hf a

theorem IdFree.map {c : Call α} (hc : IdFree c) (f : α → β) : IdFree (do return f (← c)) :=
  hc.bind fun _ => idFree_done _

theorem idFree_find (t : Table) (condition : Condition) (options : FindOptions) :
    IdFree (t.find condition options) :=
  (idFree_done _).bind fun _ => (idFree_send _).bind fun _ => idFree_done _

theorem idFree_search (t : Table) (keys : List String) (term : String) :
    IdFree (t.search keys term) := by
  unfold Table.search
  split
  · exact idFree_done _
  · exact (idFree_done _).bind fun _ => (idFree_send _).bind fun _ => idFree_done _

theorem idFree_invoke (f : Function) (args : List Cell) : IdFree (f.invoke args) := by
  unfold Function.invoke
  split
  · exact idFree_send _
  · exact idFree_done _

theorem idFree_store (statement : Statement) (id : Cell) : IdFree (Table.store statement id) := by
  refine (idFree_send _).bind fun reply => (idFree_done _).bind fun found => ?_
  cases found <;> exact idFree_done _

theorem idFree_sendAll : ∀ statements : List Sql, IdFree (Database.sendAll statements)
  | [] => idFree_done _
  | _ :: rest => (idFree_send _).bind fun _ => idFree_sendAll rest

theorem idFree_ask (q : Catalog.Query α) : IdFree q.ask :=
  (idFree_send _).bind fun _ => idFree_done _

theorem idFree_load (filter : TableFilter) : IdFree (Catalog.load filter) :=
  (idFree_ask _).bind fun _ => (idFree_ask _).bind fun _ => idFree_done _

end Call

/-! ## Documents without an id -/

/-- The field of the primary key is missing, null or blank. -/
def lacksId (primaryKey : String) (fields : Json.Members) : Bool :=
  match Entries.get? primaryKey fields with
  | none => true
  | some .null => true
  | some (.str s) => Text.isBlank s
  | some _ => false

theorem suppliedId_eq_none_iff {primaryKey : String} {fields : Json.Members} :
    Table.suppliedId primaryKey fields = .ok none ↔ lacksId primaryKey fields = true := by
  unfold Table.suppliedId lacksId
  cases Entries.get? primaryKey fields with
  | none => exact iff_of_true rfl rfl
  | some value =>
    cases value with
    | null => exact iff_of_true rfl rfl
    | bool b => exact iff_of_false nofun nofun
    | arr items => exact iff_of_false nofun nofun
    | obj members => exact iff_of_false nofun nofun
    | str s =>
      cases hblank : Text.isBlank s with
      | false => simp [Cell.ofJson, Option.filter, Cell.isBlank, hblank]
      | true => simp [Cell.ofJson, Option.filter, Cell.isBlank, hblank]
    | num n =>
      cases hn : n.toInt64? with
      | none => simp [Cell.ofJson, Option.filter, Cell.isBlank, hn]
      | some i => simp [Cell.ofJson, Option.filter, Cell.isBlank, hn]

namespace Table

variable {t : Table} {fields : Json.Members}

/-- No other save asks for an id. -/
theorem idFree_save {operation : SaveOperation}
    (h : operation = .update ∨ lacksId t.primaryKey fields = false) :
    (t.save operation (.obj fields)).IdFree := by
  show Call.IdFree (Call.check (suppliedId t.primaryKey fields) >>= _)
  cases hsupplied : suppliedId t.primaryKey fields with
  | error r => exact Call.idFree_done _
  | ok supplied =>
    cases operation with
    | update =>
      cases supplied with
      | none => exact Call.idFree_done _
      | some id =>
        show Call.IdFree (Call.check (t.updating id _) >>= _)
        exact (Call.idFree_done _).bind fun statement => Call.idFree_store statement id
    | insert =>
      cases supplied with
      | some id => exact Call.idFree_store _ id
      | none =>
        have hlacks := suppliedId_eq_none_iff.mp hsupplied
        simp [hlacks] at h

theorem idFree_save_of_not_obj {document : Json} (h : document.members? = none)
    (t : Table) (operation : SaveOperation) : (t.save operation document).IdFree := by
  cases document with
  | obj members => cases h
  | _ => exact Call.idFree_done _

theorem idFree_updateById_of_not_obj {document : Json} (h : document.members? = none)
    (t : Table) (id : Cell) : (t.updateById id document).IdFree := by
  cases document with
  | obj members => cases h
  | _ => exact Call.idFree_done _

theorem sent_store (host : Host σ) (statement : Statement) (id : Cell) (state : σ) :
    (Call.run host (store statement id) state).sent = [statement] := by
  obtain ⟨read, hstore, -⟩ := Call.exists_store_eq statement id
  rw [hstore]
  rfl

theorem idFree_storeNew (t : Table) (body : Json.Members) (id : Cell) :
    (t.storeNew body id).IdFree := by
  unfold storeNew
  split
  · exact Call.idFree_done _
  · exact Call.idFree_store _ id

/-- The document is sent with the new id, unless that is blank. -/
theorem insert_without_id (h : lacksId t.primaryKey fields = true) (host : Host σ) (state : σ) :
    let id := (host.newId state).1
    let out := Call.run host (t.save .insert (.obj fields)) state
    Call.newIds host (t.save .insert (.obj fields)) state = [id] ∧
      if id.isBlank then out.sent = [] ∧ out.value = .error (.invalid .emptyGeneratedId)
      else out.sent = [t.insertion id (Entries.erase t.primaryKey fields)] := by
  rw [save_insert_eq (suppliedId_eq_none_iff.mpr h)]
  intro id out
  let body := Entries.erase t.primaryKey fields
  have hids : Call.newIds host (t.storeNew body id) (host.newId state).2 = [] :=
    (idFree_storeNew t body id).newIds_eq host _
  have hout : out = (Call.run host (t.storeNew body id) (host.newId state).2).after .newId := rfl
  refine ⟨congrArg (List.cons id) hids, ?_⟩
  rw [hout]
  unfold storeNew
  split
  · exact ⟨rfl, rfl⟩
  · exact sent_store host _ id _

end Table

/-! ## Saves that need an id -/

namespace Save

/-- The insertion of a document without an id. -/
def needsId (s : Save) : Bool :=
  decide (s.operation = .insert) && lacksId s.table.primaryKey s.fields

/-- Everything that creates the table is accepted, and the document gets to it. -/
def reachesTable (host : Host σ) (s : Save) (state : σ) : Bool :=
  (Call.run host (Database.sendAll s.creation) state).value.isOk

def creationStatements (s : Save) : List Statement :=
  s.creation.map fun sql => .ofSql sql [] false

variable {host : Host σ} {s : Save} {state : σ}

theorem newIds_call (host : Host σ) (s : Save) (state : σ) :
    Call.newIds host s.call state =
      if s.reachesTable host state then
        Call.newIds host (s.table.save s.operation (.obj s.fields))
          (Call.run host (Database.sendAll s.creation) state).state
      else [] := by
  have hcreation : Call.newIds host (Database.sendAll s.creation) state = [] :=
    (Call.idFree_sendAll s.creation).newIds_eq host state
  rw [call, Call.newIds_bind, hcreation, List.nil_append, reachesTable]
  cases (Call.run host (Database.sendAll s.creation) state).value <;> rfl

theorem newIds_call_of_not (h : (s.needsId && s.reachesTable host state) = false) :
    Call.newIds host s.call state = [] := by
  rw [newIds_call]
  split
  · rename_i hreaches
    have hneeds : s.needsId = false := by simpa [hreaches] using h
    have hfree : (s.table.save s.operation (.obj s.fields)).IdFree := by
      refine Table.idFree_save ?_
      cases hoperation : s.operation with
      | update => exact .inl rfl
      | insert => exact .inr (by simpa [needsId, hoperation] using hneeds)
    exact hfree.newIds_eq host _
  · rfl

theorem creationStatements_eq_nil_iff : s.creationStatements = [] ↔ s.creates = false := by
  rw [creationStatements, List.map_eq_nil_iff, creation]
  cases s.creates with
  | false => exact iff_of_true rfl rfl
  | true => exact iff_of_false (creation_ne_nil _ _) nofun

/-- The statements that create the table come first. -/
theorem run_call_of_reaches (h : s.reachesTable host state = true) :
    let first := Call.run host (Database.sendAll s.creation) state
    let second := Call.run host (s.table.save s.operation (.obj s.fields)) first.state
    (Call.run host s.call state).sent = s.creationStatements ++ second.sent ∧
      (Call.run host s.call state).value = second.value := by
  have hdelivers := Database.delivers_sendAll host s.creation state
  rw [reachesTable] at h
  rw [call, Call.run_bind]
  dsimp only
  cases hvalue : (Call.run host (Database.sendAll s.creation) state).value with
  | error e =>
    rw [hvalue] at h
    cases h
  | ok _ =>
    rw [hvalue] at hdelivers
    refine ⟨?_, rfl⟩
    rw [Outcome.sent_afterAll, Outcome.sent_of_requests hdelivers.1]
    rfl

theorem run_call_of_needsId (hneeds : s.needsId = true)
    (hreaches : s.reachesTable host state = true) :
    ∃ id, Call.newIds host s.call state = [id] ∧
      if id.isBlank then
        (Call.run host s.call state).value = .error (.invalid .emptyGeneratedId) ∧
          (Call.run host s.call state).sent = s.creationStatements
      else
        (Call.run host s.call state).sent =
          s.creationStatements ++ [s.table.insertion id s.body] := by
  obtain ⟨hoperation, hlacks⟩ := Bool.and_eq_true_iff.mp hneeds
  obtain ⟨hsent, hvalue⟩ := run_call_of_reaches hreaches
  rw [of_decide_eq_true hoperation] at hsent hvalue
  obtain ⟨hids, hinsert⟩ := Table.insert_without_id hlacks host
    (Call.run host (Database.sendAll s.creation) state).state
  refine ⟨_, Eq.trans ?_ hids, ?_⟩
  · rw [newIds_call, if_pos hreaches, of_decide_eq_true hoperation]
  · rw [hsent, hvalue]
    split at hinsert
    · rename_i hblank
      rw [if_pos hblank, hinsert.1, List.append_nil]
      exact ⟨hinsert.2, rfl⟩
    · rename_i hblank
      rw [if_neg hblank, hinsert]
      rfl

end Save

/-! ## Actions that need no id -/

/-- Asks for no id on any database. -/
def Action.IdFree (a : Action α) : Prop := ∀ db, (a.session db).IdFree

namespace Action

theorem IdFree.bind {a : Action α} {f : α → Action β} (ha : IdFree a) (hf : ∀ x, IdFree (f x)) :
    IdFree (a >>= f) := by
  intro db
  rw [session_bind]
  refine (ha db).bind fun r => ?_
  obtain ⟨e | x, db'⟩ := r
  · trivial
  · exact hf x db'

theorem IdFree.map {a : Action α} (ha : IdFree a) (f : α → β) : IdFree (do return f (← a)) :=
  ha.bind fun _ _ => trivial

theorem idFree_call {c : Call α} (h : c.IdFree) : IdFree (Action.call c) :=
  fun _ => Session.IdFree.bind h fun _ => trivial

/-- An action that ends at once. -/
theorem idFree_done {a : Action α} (h : ∀ db, ∃ r, a.session db = .done r) : IdFree a := by
  intro db
  obtain ⟨r, hdone⟩ := h db
  rw [hdone]
  trivial

theorem idFree_get : IdFree (get : Action Database) := idFree_done fun db => ⟨(.ok db, db), rfl⟩

theorem idFree_modifyGet (f : Database → α × Database) : IdFree (modifyGet f : Action α) :=
  idFree_done fun db => ⟨(.ok (f db).1, (f db).2), rfl⟩

end Action

namespace Database

open DocStore.Action

theorem idFree_bindTable (d : TableDescriptor) : IdFree (bindTable d) :=
  idFree_done fun db => ⟨(.ok _, db.bind _), rfl⟩

theorem idFree_bindFunction (d : FunctionDescriptor) : IdFree (bindFunction d) :=
  idFree_modifyGet _

theorem idFree_loading {ask : Config → Call α} (h : ∀ config, (ask config).IdFree)
    (bind : α → Database → β × Database) : IdFree (loading ask bind) :=
  idFree_get.bind fun _ => (idFree_call (h _)).bind fun _ => idFree_modifyGet _

theorem idFree_createCollection (name : String) : IdFree (createCollection name) :=
  idFree_get.bind fun _ => (idFree_call (Call.idFree_done _)).bind fun d =>
    (idFree_call (Call.idFree_sendAll _)).bind fun _ => idFree_bindTable d

theorem idFree_invoke (path : String) (args : List Cell) :
    IdFree (do Action.call (invoke (← get) path args)) :=
  idFree_get.bind fun _ =>
    idFree_call ((Call.idFree_done _).bind fun f => Call.idFree_invoke f args)

end Database

theorem EntityOperation.idFree_of_no_save {o : EntityOperation} (h : o.save? = none) :
    o.call.IdFree := by
  cases o with
  | find t condition options => exact (Call.idFree_find t condition options).map _
  | findJson t condition options =>
    exact ((Call.idFree_done _).bind fun c => Call.idFree_find t c options).map _
  | findById t id => exact ((Call.idFree_find t (.byId id) {}).map FindResult.first?).map _
  | search t keys term => exact (Call.idFree_search t keys term).map _
  | save t operation document =>
    exact (Table.idFree_save_of_not_obj (Option.map_eq_none_iff.mp h) t operation).map _
  | insert t document =>
    exact (Table.idFree_save_of_not_obj (Option.map_eq_none_iff.mp h) t .insert).map _
  | update t document =>
    exact (Table.idFree_save_of_not_obj (Option.map_eq_none_iff.mp h) t .update).map _
  | updateById t id document =>
    exact (Table.idFree_updateById_of_not_obj (Option.map_eq_none_iff.mp h) t id).map _
  | invoke f args => exact (Call.idFree_invoke f args).map _

/-- What saves nothing asks for no id. -/
theorem Operation.idFree_of_no_save {o : Operation} {db : Database} (h : o.save? db = none) :
    (o.action.session db).IdFree := by
  have hsaves : ∀ {operation name document}, db.save? operation name document = none →
      (Action.session (do
        return Answer.document (← Database.saveDocument operation name document)) db).IdFree := by
    intro operation name document hnone
    obtain ⟨e, he⟩ := Database.session_saveDocument_of_none hnone
    rw [Action.session_bind, he]
    trivial
  cases o with
  | ofEntity o => exact Action.idFree_call (o.idFree_of_no_save h) db
  | invoke path args => exact (Database.idFree_invoke path args).map Answer.reply db
  | saveDocument operation name document => exact hsaves h
  | insertDocument name document => exact hsaves h
  | updateDocument name document => exact hsaves h
  | createCollection name => exact (Database.idFree_createCollection name).map Answer.table db

/-! ## Operations that save -/

theorem Action.newIds_return (host : Host σ) (a : Action α) (f : α → β) (db : Database)
    (state : σ) :
    (Action.session (do return f (← a)) db).newIds host state =
      (a.session db).newIds host state := by
  rw [session_return, Session.newIds_map]

theorem Operation.newIds_of_save (host : Host σ) {o : Operation} {db : Database} {s : Save}
    (h : o.save? db = some s) (state : σ) :
    (o.action.session db).newIds host state = Call.newIds host s.call state := by
  have hanswered : (o.action.answered db).newIds host state =
      (o.action.session db).newIds host state := Session.newIds_map host _ Prod.fst state
  rw [← hanswered, o.answered_save h, Call.run_return, Session.newIds_map]
  rfl

/-! ## Uses of a database -/

/-- What can be done with a database, its tables and its functions. -/
inductive Step where
  | change (c : Change)
  | send (sql : String) (params : List Cell)

namespace Step

def action : Step → Action (Option Unit)
  | .change c => c.action
  | .send sql params => do return (fun _ => some ()) (← Action.call (Database.send sql params))

/-- What the step saves, if it gets as far as saving. -/
def save? (db : Database) : Step → Option Save
  | .change (.operate o) => o.save? db
  | _ => none

/-- The steps one after another. The one after a failure is tried all the same, but after
one that breaks off there is none. -/
def session : List Step → Database → Session Database
  | [], db => .done db
  | step :: steps, db =>
    step.action.session db >>= fun
      | (.ok none, db) => .done db
      | (_, db) => session steps db

end Step

/-- A step that is taken, with the database and the state of the host before it. -/
structure Moment (σ : Type) where
  step : Step
  db : Database
  state : σ

namespace Moment

def out (host : Host σ) (m : Moment σ) : Outcome (Except DbError (Option Unit) × Database) σ :=
  (m.step.action.session m.db).run host m.state

/-- The new ids that the step is given. -/
def newIds (host : Host σ) (m : Moment σ) : List Cell :=
  (m.step.action.session m.db).newIds host m.state

/-- The insertion of a document without an id gets to its table. -/
def needsId (host : Host σ) (m : Moment σ) : Bool :=
  match m.step.save? m.db with
  | some s => s.needsId && s.reachesTable host m.state
  | none => false

end Moment

/-- The moments of a use of the database. -/
def moments (host : Host σ) : List Step → Database → σ → List (Moment σ)
  | [], _, _ => []
  | step :: steps, db, state =>
    let m : Moment σ := ⟨step, db, state⟩
    match (m.out host).value with
    | (.ok none, _) => [m]
    | (_, db) => m :: moments host steps db (m.out host).state

namespace Moment

variable {host : Host σ} {m : Moment σ}

/-- How a step is given a new id, and what it does with it: it is sent with the
document, or refused if it is blank. -/
structure Inserts (host : Host σ) (m : Moment σ) (id : Cell) : Prop where
  newIds : m.newIds host = [id]
  inserts : ∃ s, m.step.save? m.db = some s ∧
    if id.isBlank then
      (m.out host).value.1 = .error (.invalid .emptyGeneratedId) ∧
        (m.out host).sent = s.creationStatements ∧ ((m.out host).sent = [] ↔ s.creates = false)
    else (m.out host).sent = s.creationStatements ++ [s.table.insertion id s.body]

theorem newIds_of_no_save (h : m.step.save? m.db = none) : m.newIds host = [] := by
  obtain ⟨step, db, state⟩ := m
  have hfree : (step.action.session db).IdFree := by
    cases step with
    | send sql params => exact (Action.idFree_call (Call.idFree_send _)).map _ db
    | change c =>
      cases c with
      | load => exact Database.idFree_loading (fun _ => Call.idFree_load _) _ db
      | loadTables => exact (Database.idFree_loading (fun _ => Call.idFree_ask _) _).map _ db
      | loadFunctions => exact (Database.idFree_loading (fun _ => Call.idFree_ask _) _).map _ db
      | bindTable d => exact (Database.idFree_bindTable d).map _ db
      | bindFunction d => exact (Database.idFree_bindFunction d).map _ db
      | operate o =>
        show (Action.session (do return (fun _ => some ()) (← o.action)) db).IdFree
        rw [Action.session_bind]
        refine (o.idFree_of_no_save h).bind fun r => ?_
        obtain ⟨e | x, db'⟩ := r <;> trivial
  exact hfree.newIds_eq host state

/-- A step that saves is its save, but for what it binds. -/
theorem out_of_save {s : Save} (h : m.step.save? m.db = some s) (host : Host σ) :
    m.newIds host = Call.newIds host s.call m.state ∧
      (m.out host).sent = (Call.run host s.call m.state).sent ∧
      (m.out host).value.1 = (Call.run host s.call m.state).value.map fun _ => some () := by
  obtain ⟨step, db, state⟩ := m
  cases step with
  | send sql params => cases h
  | change c =>
    cases c with
    | operate o =>
      have hout : (Moment.mk (.change (.operate o)) db state).out host =
          ⟨((o.run host db state).value.1.map fun _ => some (), (o.run host db state).value.2),
            (o.run host db state).requests, (o.run host db state).state⟩ :=
        Action.run_map host o.action (fun _ => some ()) db state
      rw [hout, o.run_eq_of_save host h]
      refine ⟨?_, rfl, map_map _ _ _⟩
      exact (Action.newIds_return host o.action (fun _ => some ()) db state).trans
        (o.newIds_of_save host h state)
    | _ => cases h

/-- All that a step can do with the new ids. -/
theorem newIds_cases (host : Host σ) (m : Moment σ) :
    (m.needsId host = false ∧ m.newIds host = []) ∨
      m.needsId host = true ∧ ∃ id, m.Inserts host id := by
  unfold needsId
  cases hsave : m.step.save? m.db with
  | none => exact .inl ⟨rfl, newIds_of_no_save hsave⟩
  | some s =>
    obtain ⟨hids, hsent, hvalue⟩ := out_of_save hsave host
    dsimp only
    cases hneeds : s.needsId && s.reachesTable host m.state with
    | false => exact .inl ⟨rfl, hids.trans (Save.newIds_call_of_not hneeds)⟩
    | true =>
      obtain ⟨hneeds, hreaches⟩ := Bool.and_eq_true_iff.mp hneeds
      obtain ⟨id, hid, hcall⟩ := Save.run_call_of_needsId hneeds hreaches
      refine .inr ⟨rfl, id, hids.trans hid, s, hsave, ?_⟩
      rw [hsent, hvalue]
      split at hcall
      · rename_i hblank
        rw [if_pos hblank, hcall.1, hcall.2]
        exact ⟨rfl, rfl, Save.creationStatements_eq_nil_iff⟩
      · rename_i hblank
        rw [if_neg hblank, hcall]

end Moment

/-! ## In turn -/

/-- The new ids of a use of the database are those of its moments. -/
theorem newIds_session (host : Host σ) : ∀ (steps : List Step) (db : Database) (state : σ),
    (Step.session steps db).newIds host state =
      (moments host steps db state).flatMap (·.newIds host)
  | [], _, _ => rfl
  | step :: steps, db, state => by
    let m : Moment σ := ⟨step, db, state⟩
    have hfirst : (Step.session (step :: steps) db).newIds host state =
        m.newIds host ++ (match (m.out host).value with
          | (.ok none, db) => Session.done db
          | (_, db) => Step.session steps db).newIds host (m.out host).state :=
      Session.newIds_bind host _ _ state
    have hmoments : moments host (step :: steps) db state = match (m.out host).value with
        | (.ok none, _) => [m]
        | (_, db) => m :: moments host steps db (m.out host).state := rfl
    rw [hfirst, hmoments]
    rcases (m.out host).value with ⟨e | (- | x), after⟩
    · rw [List.flatMap_cons, ← newIds_session host steps]
    · rfl
    · rw [List.flatMap_cons, ← newIds_session host steps]

theorem Moment.idsAsked_eq (host : Host σ) (m : Moment σ) :
    (m.out host).idsAsked = if m.needsId host then 1 else 0 := by
  have hlength : (m.newIds host).length = (m.out host).idsAsked := Session.length_newIds host _ _
  rw [← hlength]
  rcases m.newIds_cases host with ⟨hneeds, hids⟩ | ⟨hneeds, id, hinserts⟩
  · rw [hneeds, hids]
    rfl
  · rw [hneeds, hinserts.newIds]
    rfl

/-- However a database is used, a new id is asked for once by every insertion that
lacks one, and by nothing else, and the ids are used in the order in which they
are given. -/
theorem ids_in_turn (host : Host σ) (steps : List Step) (db : Database) (state : σ) :
    (∀ m ∈ moments host steps db state,
        (m.out host).idsAsked = if m.needsId host then 1 else 0) ∧
      List.Forall₂ (Moment.Inserts host)
        ((moments host steps db state).filter (·.needsId host))
        ((Step.session steps db).newIds host state) := by
  refine ⟨fun m _ => m.idsAsked_eq host, ?_⟩
  rw [newIds_session]
  induction moments host steps db state with
  | nil => exact .nil
  | cons m ms ih =>
    rw [List.flatMap_cons]
    rcases m.newIds_cases host with ⟨hneeds, hids⟩ | ⟨hneeds, id, hinserts⟩
    · rw [List.filter_cons_of_neg (by simp [hneeds]), hids]
      exact ih
    · rw [List.filter_cons_of_pos hneeds, hinserts.newIds]
      exact .cons hinserts ih

/-- Answers every statement with no rows, and has no new ids. -/
def Host.withoutIds : Host Unit := { Host.silent with newId := fun _ => (.text " ", ()) }

/-- The first insertion into a collection has created it when its new id is
refused. -/
theorem blank_id_refused_after_creation :
    let m : Moment Unit :=
      ⟨.change (.operate (.insertDocument "notes" (.obj []))), .ofConfig {}, ()⟩
    m.needsId Host.withoutIds = true ∧ m.newIds Host.withoutIds = [.text " "] ∧
      (m.out Host.withoutIds).value.1 = .error (.invalid .emptyGeneratedId) ∧
      (m.out Host.withoutIds).sent.map Statement.sql =
        ["create table if not exists \"notes\" (id text primary key, body jsonb not null)",
          "create index if not exists \"idx_notes\" on \"notes\" using gin (to_tsvector('simple', body::text))"] :=
  ⟨rfl, rfl, rfl, rfl⟩

end DocStore
