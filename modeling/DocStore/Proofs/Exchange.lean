import DocStore.Proofs.Save

/-!
# One statement, one reply

A call on a table or a function is refused, or sends one statement and
reads the reply. Which of the two happens, and what is sent, is decided
before the database is asked for anything: by the arguments, and for an
insertion without an id by the new id. The rest is decided by the reply
alone (`Exchange`).

That a call has this form is a fact about its requests, so it is proved
without a host, part by part; how it goes with a host (`asks_once`)
follows from the form. What the replies are read as is said of rows and
documents, for all operations in three ways: by the first row, by all
rows, and for functions as they are.

Statements that create a collection are sent one after another, up to the
first that is refused (`delivers_sendAll`).

Main statement: `asks_once`.
-/

namespace DocStore

variable {α β σ : Type}

/-! ## Replies -/

/-- What the database answers to the statements of a session, in order. -/
def Session.replies (host : Host σ) : Session α → σ → List (Except DbError QueryResult)
  | .done _, _ => []
  | .connect url next, state =>
    replies host (next (host.connect url state).1) (host.connect url state).2
  | .send statement next, state =>
    (host.execute statement state).1 ::
      replies host (next (host.execute statement state).1) (host.execute statement state).2
  | .newId next, state => replies host (next (host.newId state).1) (host.newId state).2

theorem Session.replies_bind (host : Host σ) (s : Session α) (f : α → Session β) (state : σ) :
    (s >>= f).replies host state =
      s.replies host state ++
        (f (s.run host state).value).replies host (s.run host state).state := by
  induction s generalizing state with
  | done a => rfl
  | connect url next ih => exact ih _ _
  | send statement next ih => exact congrArg (List.cons _) (ih _ _)
  | newId next ih => exact ih _ _

/-- What the database answers to a call. -/
def Call.replies (host : Host σ) (c : Call α) (state : σ) : List (Except DbError QueryResult) :=
  Session.replies host (ExceptT.run c) state

/-! ## Statements in a row -/

/-- How statements fare that are sent one after another: each is answered, or
the last that is sent is the first that is refused. -/
def Delivers (statements : List Statement) (requests : List Request)
    (replies : List (Except DbError QueryResult)) : Except DbError Unit → Prop
  | .ok _ => requests = statements.map .send ∧
      ∃ answers : List QueryResult, answers.length = statements.length ∧ replies = answers.map .ok
  | .error e => ∃ answers : List QueryResult, answers.length < statements.length ∧
      requests = (statements.take (answers.length + 1)).map .send ∧
      replies = answers.map .ok ++ [.error e]

section Delivers

variable {statements : List Statement} {requests : List Request}
  {replies : List (Except DbError QueryResult)}

theorem delivers_refused (s : Statement) (e : DbError) :
    Delivers (s :: statements) [.send s] [.error e] (.error e) :=
  ⟨[], Nat.zero_lt_succ _, rfl, rfl⟩

theorem Delivers.cons {result : Except DbError Unit}
    (h : Delivers statements requests replies result) (s : Statement) (answer : QueryResult) :
    Delivers (s :: statements) (.send s :: requests) (.ok answer :: replies) result := by
  cases result with
  | ok _ =>
    obtain ⟨rfl, answers, hlength, rfl⟩ := h
    exact ⟨rfl, answer :: answers, congrArg (· + 1) hlength, rfl⟩
  | error e =>
    obtain ⟨answers, hlength, rfl, rfl⟩ := h
    exact ⟨answer :: answers, Nat.succ_lt_succ hlength, rfl, rfl⟩

theorem Delivers.requests_subset {result : Except DbError Unit}
    (h : Delivers statements requests replies result) : requests ⊆ statements.map .send := by
  cases result with
  | ok _ =>
    obtain ⟨rfl, -⟩ := h
    exact List.Subset.refl _
  | error e =>
    obtain ⟨answers, -, rfl, -⟩ := h
    exact List.map_subset _ (List.take_subset _ _)

end Delivers

namespace Database

/-- The rest is sent if the first one is answered. -/
theorem session_sendAll_cons (sql : Sql) (rest : List Sql) :
    ExceptT.run (sendAll (sql :: rest)) = Session.send (.ofSql sql [] false) fun
      | .ok _ => ExceptT.run (sendAll rest)
      | .error e => .done (.error e) := by
  show Session.send _ _ = Session.send _ _
  congr 1
  funext reply
  cases reply <;> rfl

theorem delivers_sendAll (host : Host σ) : ∀ (statements : List Sql) (state : σ),
    Delivers (statements.map fun sql => .ofSql sql [] false)
      (Call.run host (sendAll statements) state).requests
      ((sendAll statements).replies host state) (Call.run host (sendAll statements) state).value
  | [], _ => ⟨rfl, [], rfl, rfl⟩
  | sql :: rest, state => by
    unfold Call.run Call.replies
    rw [session_sendAll_cons]
    unfold Session.run Session.replies
    obtain ⟨reply, state'⟩ := host.execute (.ofSql sql [] false) state
    cases reply with
    | error e => exact delivers_refused _ e
    | ok answer => exact (delivers_sendAll host rest state').cons _ answer

end Database

/-! ## Exchanges -/

/-- One statement, and what a reply to it is read as. -/
structure Exchange (α : Type) where
  statement : Statement
  read : QueryResult → Except DbError α

namespace Exchange

/-- An error of the database is the error of the call. -/
def call (x : Exchange α) : Call α :=
  ExceptT.mk (.send x.statement fun reply => .done (reply >>= x.read))

def map (f : α → β) (x : Exchange α) : Exchange β := ⟨x.statement, fun r => (x.read r).map f⟩

end Exchange

namespace Call

/-- A refusal, or an exchange. -/
def planned : Except Refusal (Exchange α) → Call α
  | .error r => throw (.invalid r)
  | .ok x => x.call

/-- The call is what is planned, perhaps with a new id that it asks for first. -/
def Follows (c : Call α) (plan : Cell → Except Refusal (Exchange α)) : Prop :=
  (∀ fresh, c = planned (plan fresh)) ∨ c = newId >>= fun fresh => planned (plan fresh)

/-- Has one exchange, which with each new id has the property, unless it is refused. -/
def Exchanges (p : Cell → Exchange α → Prop) (c : Call α) : Prop :=
  ∃ plan, c.Follows plan ∧ ∀ fresh x, plan fresh = .ok x → p fresh x

/-! ## Parts of calls -/

section Parts

variable {p : Cell → Exchange α → Prop}

theorem exchanges_refuse (r : Refusal) : Exchanges p (throw (.invalid r) : Call α) :=
  ⟨fun _ => .error r, .inl fun _ => rfl, nofun⟩

theorem exchanges_call {x : Exchange α} (h : ∀ fresh, p fresh x) : Exchanges p x.call := by
  refine ⟨fun _ => .ok x, .inl fun _ => rfl, ?_⟩
  rintro fresh y ⟨⟩
  exact h fresh

theorem exchanges_check_bind {r : Except Refusal α} {f : α → Call β} {q : Cell → Exchange β → Prop}
    (h : ∀ a, r = .ok a → Exchanges q (f a)) : Exchanges q (check r >>= f) := by
  cases r with
  | error r => exact exchanges_refuse r
  | ok a => exact h a rfl

/-- With the new id the rest has one exchange, and asks for no other id. -/
theorem exchanges_newId_bind {f : Cell → Call α}
    (h : ∀ fresh, ∃ planned', f fresh = planned planned' ∧ ∀ x, planned' = .ok x → p fresh x) :
    Exchanges p (newId >>= f) := by
  choose plan hf hp using h
  exact ⟨plan, .inr (by rw [funext hf]), hp⟩

theorem planned_bind_pure (f : α → β) (e : Except Refusal (Exchange α)) :
    (do return f (← planned e)) = planned (e.map (Exchange.map f)) := by
  cases e with
  | error r => rfl
  | ok x =>
    show ExceptT.mk (Session.send x.statement fun reply => _) =
      ExceptT.mk (Session.send x.statement fun reply => _)
    congr 2
    funext reply
    cases reply with
    | error e => rfl
    | ok r =>
      show Session.bind (.done (x.read r)) _ = .done ((x.read r).map f)
      cases x.read r <;> rfl

theorem Exchanges.mono {c : Call α} (h : Exchanges p c) {q : Cell → Exchange α → Prop}
    (hq : ∀ fresh x, p fresh x → q fresh x) : Exchanges q c := by
  obtain ⟨plan, hfollows, hp⟩ := h
  exact ⟨plan, hfollows, fun fresh x hx => hq fresh x (hp fresh x hx)⟩

/-- What is returned may be put in another form. -/
theorem Exchanges.map {c : Call α} (h : Exchanges p c) (f : α → β) {q : Cell → Exchange β → Prop}
    (hq : ∀ fresh x, p fresh x → q fresh (x.map f)) : Exchanges q (do return f (← c)) := by
  obtain ⟨plan, hfollows, hp⟩ := h
  refine ⟨fun fresh => (plan fresh).map (Exchange.map f), ?_, ?_⟩
  · rcases hfollows with h | h
    · exact .inl fun fresh => by rw [h fresh, planned_bind_pure]
    · right
      -- The new id is asked for before there is anything to put in another form.
      rw [h, bind_assoc]
      congr 1
      funext fresh
      exact planned_bind_pure f _
  · intro fresh y hy
    obtain ⟨x, hx, rfl⟩ := map_eq_ok hy
    exact hq fresh x (hp fresh x hx)

/-- What comes after the statement only reads the reply. -/
theorem send_bind_eq_call {statement : Statement} {f : QueryResult → Call α}
    {read : QueryResult → Except DbError α}
    (h : ∀ reply, f reply = ExceptT.mk (.done (read reply))) :
    send statement >>= f = Exchange.call ⟨statement, read⟩ := by
  show ExceptT.mk (Session.send statement fun reply => _) = ExceptT.mk (Session.send statement _)
  congr 2
  funext reply
  cases reply with
  | error e => rfl
  | ok r => exact h r

theorem exchanges_send_bind {statement : Statement} {f : QueryResult → Call α}
    {read : QueryResult → Except DbError α} (h : ∀ reply, f reply = ExceptT.mk (.done (read reply)))
    (hp : ∀ fresh, p fresh ⟨statement, read⟩) : Exchanges p (send statement >>= f) := by
  rw [send_bind_eq_call h]
  exact exchanges_call hp

end Parts

/-! ## With a host -/

/-- The call ends with the refusal and sends nothing, or it sends the statement
and ends with what the reply is read as. -/
def CarriesOut (host : Host σ) (c : Call α) (state : σ) : Except Refusal (Exchange α) → Prop
  | .error r => (run host c state).sent = [] ∧ c.replies host state = [] ∧
      (run host c state).value = .error (.invalid r)
  | .ok x => ∃ reply, (run host c state).sent = [x.statement] ∧
      c.replies host state = [reply] ∧ (run host c state).value = reply >>= x.read

theorem carriesOut_planned (host : Host σ) (e : Except Refusal (Exchange α)) (state : σ) :
    (planned e).CarriesOut host state e := by
  cases e with
  | error r => exact ⟨rfl, rfl, rfl⟩
  | ok x => exact ⟨_, rfl, rfl, rfl⟩

/-- To ask for an id sends nothing. -/
theorem carriesOut_newId_bind (host : Host σ) (f : Cell → Call α) (state : σ)
    (e : Except Refusal (Exchange α)) :
    (newId >>= f).CarriesOut host state e ↔
      (f (host.newId state).1).CarriesOut host (host.newId state).2 e := by
  cases e <;> exact Iff.rfl

/-- A plan is carried out with the new id of the host. -/
theorem Follows.carriesOut {c : Call α} {plan : Cell → Except Refusal (Exchange α)}
    (h : c.Follows plan) (host : Host σ) (state : σ) :
    c.CarriesOut host state (plan (host.newId state).1) := by
  rcases h with h | rfl
  · rw [h]
    exact carriesOut_planned host _ state
  · rw [carriesOut_newId_bind]
    exact carriesOut_planned host _ _

end Call

/-! ## What replies are read as -/

/-- By the first row, if there is one. -/
structure ReadsFirst (read : QueryResult → Except DbError α) (missing : Except DbError α)
    (found : Document → α) : Prop where
  empty : ∀ {r}, r.rows = [] → read r = missing
  first : ∀ {r row rest d}, r.rows = row :: rest → Document.ofRow r row = .ok d →
    read r = .ok (found d)
  malformed : ∀ {r row rest m}, r.rows = row :: rest → Document.ofRow r row = .error m →
    read r = .error (.malformed m)

/-- By all rows in order, up to the first that is no document. -/
structure ReadsAll (read : QueryResult → Except DbError α) (found : List Document → α) : Prop where
  all : ∀ {r ds}, List.Forall₂ (fun row d => Document.ofRow r row = .ok d) r.rows ds →
    read r = .ok (found ds)
  malformed : ∀ {r rows ds row rest m}, r.rows = rows ++ row :: rest →
    List.Forall₂ (fun row d => Document.ofRow r row = .ok d) rows ds →
    Document.ofRow r row = .error m → read r = .error (.malformed m)

/-- For a lookup by the first row, else by all rows. -/
structure ReadsFound (p : Predicate) (read : QueryResult → Except DbError α)
    (found : FindResult → α) : Prop where
  one : p.lookup = true →
    ReadsFirst read (.ok (found (.one none))) fun d => found (.one (some d))
  many : p.lookup = false → ReadsAll read fun ds => found (.many ds)

section Reading

variable {read : QueryResult → Except DbError α}

theorem ReadsFirst.map {missing : Except DbError α} {found : Document → α}
    (h : ReadsFirst read missing found) (f : α → β) :
    ReadsFirst (fun r => (read r).map f) (missing.map f) fun d => f (found d) where
  empty hrows := by rw [h.empty hrows]
  first hrows hrow := by
    rw [h.first hrows hrow]
    rfl
  malformed hrows hrow := by
    rw [h.malformed hrows hrow]
    rfl

theorem ReadsAll.map {found : List Document → α} (h : ReadsAll read found) (f : α → β) :
    ReadsAll (fun r => (read r).map f) fun ds => f (found ds) where
  all hrows := by
    rw [h.all hrows]
    rfl
  malformed hrows hgood hrow := by
    rw [h.malformed hrows hgood hrow]
    rfl

theorem ReadsFound.map {p : Predicate} {found : FindResult → α} (h : ReadsFound p read found)
    (f : α → β) : ReadsFound p (fun r => (read r).map f) fun result => f (found result) where
  one hp := (h.one hp).map f
  many hp := (h.many hp).map f

theorem readsFirst_first : ReadsFirst (fun r => (Document.first r).mapError .malformed)
    (.ok none) some where
  empty hrows := by rw [Document.first, hrows]; rfl
  first hrows hrow := by
    simp only [Document.first, hrows, hrow]
    rfl
  malformed hrows hrow := by
    simp only [Document.first, hrows, hrow]
    rfl

theorem readsAll_all : ReadsAll (fun r => (Document.all r).mapError .malformed) id where
  all hrows := by
    rw [Document.all, mapM_eq_ok_of_forall₂ hrows]
    rfl
  malformed hrows hgood hrow := by
    rw [Document.all, hrows, List.mapM_append, mapM_eq_ok_of_forall₂ hgood, List.mapM_cons, hrow]
    rfl

theorem readsFound_findResult (p : Predicate) :
    ReadsFound p (fun r => (Table.findResult p r).mapError .malformed) id where
  one hp := by
    have h := readsFirst_first.map FindResult.one
    simp only [Table.findResult, hp, if_true, mapError_map]
    exact h
  many hp := by
    have h := readsAll_all.map FindResult.many
    simp only [Table.findResult, hp, Bool.false_eq_true, if_false, mapError_map]
    exact h

end Reading

/-! ## Parts of a table -/

namespace Call

theorem lookup_of_byId {id : Cell} {primaryKey : String} {p : Predicate}
    (h : (Condition.byId id).compile primaryKey = .ok p) : p.lookup = true := by
  obtain ⟨route, hroute, rfl⟩ := map_eq_ok h
  obtain ⟨comparison, -, hroute⟩ := bind_eq_ok hroute
  cases hroute
  rfl

theorem exchanges_find (t : Table) (condition : Condition) (options : FindOptions) :
    (t.find condition options).Exchanges fun _ x =>
      ∃ p, condition.compile t.primaryKey = .ok p ∧ ReadsFound p x.read id :=
  exchanges_check_bind fun p hp =>
    exchanges_send_bind (fun _ => rfl) fun _ => ⟨p, hp, readsFound_findResult p⟩

theorem exchanges_findJson (t : Table) (condition : Json) (options : FindOptions) :
    (t.findJson condition options).Exchanges fun _ x =>
      ∃ c p, Condition.ofJson condition = .ok c ∧ c.compile t.primaryKey = .ok p ∧
        ReadsFound p x.read id :=
  exchanges_check_bind fun c hc =>
    (exchanges_find t c options).mono fun _ _ ⟨p, hp, hread⟩ => ⟨c, p, hc, hp, hread⟩

theorem exchanges_findById (t : Table) (id : Cell) :
    (t.findById id).Exchanges fun _ x => ReadsFirst x.read (.ok none) some := by
  refine (exchanges_find t (.byId id) {}).map FindResult.first? ?_
  rintro fresh x ⟨p, hp, hread⟩
  exact (hread.one (lookup_of_byId hp)).map FindResult.first?

theorem exchanges_search (t : Table) (keys : List String) (term : String) :
    (t.search keys term).Exchanges fun _ x => ReadsAll x.read id := by
  unfold Table.search
  split
  · exact exchanges_refuse _
  · exact exchanges_check_bind fun searched _ =>
      exchanges_send_bind (fun _ => rfl) fun _ => readsAll_all

theorem exchanges_invoke (f : Function) (args : List Cell) :
    (f.invoke args).Exchanges fun _ x => ∀ r, x.read r = .ok r := by
  unfold Function.invoke
  split
  · rw [← bind_pure (send _)]
    exact exchanges_send_bind (fun _ => rfl) fun _ _ => rfl
  · exact exchanges_refuse _

/-- A row that is not returned is not there. -/
def storedRow (id : Cell) : Option Document → Except DbError Document
  | some d => .ok d
  | none => .error (.documentNotFound id.display)

/-- The stored row is read from the reply. -/
theorem exists_store_eq (statement : Statement) (id : Cell) :
    ∃ read, Table.store statement id = Exchange.call ⟨statement, read⟩ ∧
      ReadsFirst read (.error (.documentNotFound id.display)) fun d => d := by
  refine ⟨fun r => (Document.first r).mapError .malformed >>= storedRow id, ?_, ?_, ?_, ?_⟩
  · refine send_bind_eq_call fun reply => ?_
    cases Document.first reply with
    | error m => rfl
    | ok d => cases d <;> rfl
  · intro r hrows
    rw [readsFirst_first.empty hrows]
    rfl
  · intro r row rest d hrows hrow
    rw [readsFirst_first.first hrows hrow]
    rfl
  · intro r row rest m hrows hrow
    rw [readsFirst_first.malformed hrows hrow]
    rfl

theorem exchanges_store {p : Cell → Exchange Document → Prop} (statement : Statement) (id : Cell)
    (hp : ∀ fresh x, ReadsFirst x.read (.error (.documentNotFound id.display)) (fun d => d) →
      p fresh x) : (Table.store statement id).Exchanges p := by
  obtain ⟨read, hstore, hread⟩ := exists_store_eq statement id
  rw [hstore]
  exact exchanges_call fun fresh => hp fresh _ hread

/-- Reads the row of the document with the id that is used. -/
def ReadsStored (t : Table) (operation : SaveOperation) (fields : Json.Members) (fresh : Cell)
    (x : Exchange Document) : Prop :=
  ∃ id, t.usedId? operation fields fresh = some id ∧
    ReadsFirst x.read (.error (.documentNotFound id.display)) fun d => d

theorem exchanges_insertion {t : Table} {fields : Json.Members} {supplied : Option Cell}
    (hsupplied : Table.suppliedId t.primaryKey fields = .ok supplied)
    (statement : Cell → Statement) :
    (do
      let id ← Table.insertId supplied
      Table.store (statement id) id).Exchanges (ReadsStored t .insert fields) := by
  cases supplied with
  | some id =>
    exact exchanges_store _ id fun fresh x hread =>
      ⟨id, usedId?_of_supplied hsupplied, hread⟩
  | none =>
    -- Whether the insertion is refused hangs on the new id.
    rw [Table.insertId, bind_assoc]
    refine exchanges_newId_bind fun fresh => ?_
    split
    · refine ⟨.error .emptyGeneratedId, rfl, ?_⟩
      rintro x ⟨⟩
    · obtain ⟨read, hstore, hread⟩ := exists_store_eq (statement fresh) fresh
      refine ⟨.ok ⟨statement fresh, read⟩, hstore, ?_⟩
      rintro x ⟨⟩
      exact ⟨fresh, usedId?_insert_fresh hsupplied, hread⟩

theorem exchanges_save (t : Table) (operation : SaveOperation) (document : Json) :
    (t.save operation document).Exchanges fun fresh x =>
      ∃ fields, document.members? = some fields ∧ ReadsStored t operation fields fresh x := by
  refine exchanges_check_bind fun fields hfields => ?_
  refine Exchanges.mono ?_ fun fresh x h => ⟨fields, members?_of_fields hfields, h⟩
  refine exchanges_check_bind fun supplied hsupplied => ?_
  cases operation with
  | insert => exact exchanges_insertion hsupplied _
  | update =>
    cases supplied with
    | none => exact exchanges_refuse _
    | some id =>
      refine exchanges_check_bind fun statement _ => ?_
      exact exchanges_store statement id fun fresh x hread =>
        ⟨id, usedId?_of_supplied hsupplied, hread⟩

theorem exchanges_updateById (t : Table) (id : Cell) (document : Json) :
    (t.updateById id document).Exchanges fun fresh x =>
      ∃ fields, document.members? = some fields ∧
        ReadsStored t .update (Entries.insert t.primaryKey id.toJson fields) fresh x := by
  refine exchanges_check_bind fun fields hfields => ?_
  refine (exchanges_save _ _ _).mono ?_
  rintro fresh x ⟨_, ⟨⟩, h⟩
  exact ⟨fields, members?_of_fields hfields, h⟩

end Call

/-! ## Operations on tables and functions -/

namespace EntityOperation

/-- How the operation reads a reply; `fresh` is the next new id. -/
def Reads (fresh : Cell) (read : QueryResult → Except DbError Answer) : EntityOperation → Prop
  | .find t condition _ =>
    ∃ p, condition.compile t.primaryKey = .ok p ∧ ReadsFound p read .found
  | .findJson t condition _ =>
    ∃ c p, Condition.ofJson condition = .ok c ∧ c.compile t.primaryKey = .ok p ∧
      ReadsFound p read .found
  | .findById _ _ => ReadsFirst read (.ok (.document? none)) fun d => .document? (some d)
  | .search _ _ _ => ReadsAll read .documents
  | .invoke _ _ => ∀ r, read r = .ok (.reply r)
  | o => ∃ s id, o.save? = some s ∧ s.id? fresh = some id ∧
    ReadsFirst read (.error (.documentNotFound id.display)) .document

theorem exchanges_saved {t : Table} {operation : SaveOperation} {document : Json}
    {stored : Json.Members → Json.Members} {c : Call Document}
    (h : c.Exchanges fun fresh x => ∃ fields, document.members? = some fields ∧
      Call.ReadsStored t operation (stored fields) fresh x) :
    (do return Answer.document (← c) : Call Answer).Exchanges fun fresh x => ∃ s id,
      (document.members?.map fun fields => Save.mk t operation (stored fields) false) = some s ∧
      s.id? fresh = some id ∧
      ReadsFirst x.read (.error (.documentNotFound id.display)) .document := by
  refine h.map Answer.document ?_
  rintro fresh x ⟨fields, hfields, id, hid, hread⟩
  exact ⟨_, id, congrArg (Option.map _) hfields, hid, hread.map _⟩

theorem exchanges (o : EntityOperation) : o.call.Exchanges fun fresh x => o.Reads fresh x.read := by
  cases o with
  | find t condition options =>
    refine (Call.exchanges_find t condition options).map Answer.found ?_
    rintro fresh x ⟨p, hp, hread⟩
    exact ⟨p, hp, hread.map _⟩
  | findJson t condition options =>
    refine (Call.exchanges_findJson t condition options).map Answer.found ?_
    rintro fresh x ⟨c, p, hc, hp, hread⟩
    exact ⟨c, p, hc, hp, hread.map _⟩
  | findById t id =>
    exact (Call.exchanges_findById t id).map Answer.document? fun fresh x hread => hread.map _
  | search t keys term =>
    exact (Call.exchanges_search t keys term).map Answer.documents fun fresh x hread => hread.map _
  | save t operation document => exact exchanges_saved (Call.exchanges_save t operation document)
  | insert t document => exact exchanges_saved (Call.exchanges_save t .insert document)
  | update t document => exact exchanges_saved (Call.exchanges_save t .update document)
  | updateById t id document => exact exchanges_saved (Call.exchanges_updateById t id document)
  | invoke f args =>
    refine (Call.exchanges_invoke f args).map Answer.reply ?_
    intro fresh x hread r
    exact congrArg (Except.map Answer.reply) (hread r)

/-- An operation is refused and sends nothing, which its arguments and the new
id decide alone, or it sends one statement and ends with what the reply is read
as. An error of the database is the error of the operation. -/
theorem asks_once (o : EntityOperation) :
    ∃ plan : Cell → Except Refusal (Exchange Answer),
      (∀ fresh x, plan fresh = .ok x → o.Reads fresh x.read) ∧
      ∀ {σ : Type} (host : Host σ) (state : σ),
        o.call.CarriesOut host state (plan (host.newId state).1) := by
  obtain ⟨plan, hfollows, hreads⟩ := o.exchanges
  exact ⟨plan, hreads, fun host state => hfollows.carriesOut host state⟩

end EntityOperation

end DocStore
