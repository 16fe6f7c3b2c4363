import DocStore.Proofs.Operation

/-!
# Refused before anything is sent

A call refuses its arguments before its first statement: what comes
before is silent, and what comes after fails only with what the database
reports or with what is wrong with its answer. All operations are of
this form but one. A document that is saved to a collection for which no
table is bound has its fields checked only when the collection is there
and bound (`CreatesFirst`), so if they are refused then, the statements
that create the collection have been sent.

Main statement: `refused_silently_iff`.
-/

namespace DocStore

variable {σ : Type} {host : Host σ} {α β : Type}

/-! ## Kinds of calls -/

/-- Whatever the database reports, it does not refuse arguments. -/
def Host.RefusesNothing (host : Host σ) : Prop :=
  ∀ statement state e, (host.execute statement state).1 = .error e → e.kind ≠ .invalidArgument

namespace Call

/-- Sends nothing. -/
def Silent (host : Host σ) (c : Call α) : Prop := ∀ state, (run host c state).sent = []

/-- Fails only for other reasons than its arguments. -/
def Accepts (host : Host σ) (c : Call α) : Prop :=
  ∀ state e, (run host c state).value = .error e → e.kind ≠ .invalidArgument

/-- Has sent nothing if it refuses its arguments. -/
def Careful (host : Host σ) (c : Call α) : Prop :=
  ∀ state e, (run host c state).value = .error e → e.kind = .invalidArgument →
    (run host c state).sent = []

theorem Silent.careful {c : Call α} (h : Silent host c) : Careful host c :=
  fun state _ _ _ => h state

theorem Accepts.careful {c : Call α} (h : Accepts host c) : Careful host c :=
  fun state e hvalue hkind => absurd hkind (h state e hvalue)

/-! ## In two parts -/

theorem Silent.bind {c : Call α} {f : α → Call β} (hc : Silent host c)
    (hf : ∀ a, Silent host (f a)) : Silent host (c >>= f) := by
  intro state
  rw [run_bind]
  have hfirst := hc state
  dsimp only
  split
  · rw [Outcome.sent_afterAll, hfirst, hf, List.append_nil]
  · exact hfirst

theorem Accepts.bind {c : Call α} {f : α → Call β} (hc : Accepts host c)
    (hf : ∀ a, Accepts host (f a)) : Accepts host (c >>= f) := by
  intro state e h
  rw [run_bind] at h
  dsimp only at h
  split at h
  · exact hf _ _ e h
  · rename_i e' he
    cases h
    exact hc state e he

theorem Silent.bind_careful {c : Call α} {f : α → Call β} (hc : Silent host c)
    (hf : ∀ a, Careful host (f a)) : Careful host (c >>= f) := by
  intro state e h hkind
  rw [run_bind] at h ⊢
  have hfirst := hc state
  dsimp only at h ⊢
  split at h
  · rw [Outcome.sent_afterAll, hfirst, hf _ _ e h hkind, List.append_nil]
  · exact hfirst

theorem Careful.bind {c : Call α} {f : α → Call β} (hc : Careful host c)
    (hf : ∀ a, Accepts host (f a)) : Careful host (c >>= f) := by
  intro state e h hkind
  rw [run_bind] at h ⊢
  dsimp only at h ⊢
  split at h
  · exact absurd hkind (hf _ _ e h)
  · rename_i e' he
    cases h
    exact hc state e he hkind

/-! ## Single steps -/

theorem silent_done (r : Except DbError α) : Silent host (ExceptT.mk (.done r)) := fun _ => rfl

theorem accepts_done {r : Except DbError α} (h : ∀ e, r = .error e → e.kind ≠ .invalidArgument) :
    Accepts host (ExceptT.mk (.done r)) := fun _ e hvalue => h e hvalue

theorem accepts_pure (a : α) : Accepts host (pure a) := accepts_done (by rintro e ⟨⟩)

theorem silent_throw (e : DbError) : Silent host (throw e : Call α) := silent_done _

theorem silent_check (r : Except Refusal α) : Silent host (check r) := silent_done _

theorem accepts_decode (r : Except Malformation α) : Accepts host (decode r) := by
  apply accepts_done
  intro e h
  cases r <;> cases h
  simp [DbError.kind]

theorem accepts_send (hhost : host.RefusesNothing) (statement : Statement) :
    Accepts host (send statement) :=
  fun state e h => hhost statement state e h

theorem silent_newId : Silent host newId := fun _ => rfl

end Call

/-! ## Tables and functions -/

section Entities

open Call

variable (hhost : host.RefusesNothing)
include hhost

theorem careful_find (t : Table) (condition : Condition) (options : FindOptions) :
    Careful host (t.find condition options) := by
  refine (silent_check _).bind_careful fun predicate => Accepts.careful ?_
  exact (accepts_send hhost _).bind fun reply => accepts_decode _

theorem careful_findJson (t : Table) (condition : Json) (options : FindOptions) :
    Careful host (t.findJson condition options) :=
  (silent_check _).bind_careful fun condition => careful_find hhost t condition options

theorem careful_findById (t : Table) (id : Cell) : Careful host (t.findById id) :=
  (careful_find hhost t (.byId id) {}).bind fun _ => accepts_pure _

theorem careful_search (t : Table) (keys : List String) (term : String) :
    Careful host (t.search keys term) := by
  unfold Table.search
  split
  · exact (silent_throw _).careful
  · refine (silent_check _).bind_careful fun searched => Accepts.careful ?_
    exact (accepts_send hhost _).bind fun reply => accepts_decode _

theorem accepts_store (statement : Statement) (id : Cell) :
    Accepts host (Table.store statement id) := by
  refine (accepts_send hhost _).bind fun reply => (accepts_decode _).bind fun found => ?_
  cases found with
  | some document => exact accepts_pure document
  | none =>
    apply accepts_done
    rintro e ⟨⟩
    simp [DbError.kind]

omit hhost in
theorem silent_insertId (supplied : Option Cell) : Silent host (Table.insertId supplied) := by
  cases supplied with
  | some id => exact silent_done _
  | none =>
    refine silent_newId.bind fun id => ?_
    split
    · exact silent_throw _
    · exact silent_done _

theorem careful_save (t : Table) (operation : SaveOperation) (document : Json) :
    Careful host (t.save operation document) := by
  refine (silent_check _).bind_careful fun fields =>
    (silent_check _).bind_careful fun supplied => ?_
  cases operation with
  | insert =>
    exact (silent_insertId _).bind_careful fun id => (accepts_store hhost _ id).careful
  | update =>
    cases supplied with
    | none => exact (silent_throw _).careful
    | some id =>
      exact (silent_check _).bind_careful fun statement =>
        (accepts_store hhost statement id).careful

theorem careful_updateById (t : Table) (id : Cell) (document : Json) :
    Careful host (t.updateById id document) :=
  (silent_check _).bind_careful fun _ => careful_save hhost t .update _

theorem careful_invoke (f : Function) (args : List Cell) : Careful host (f.invoke args) := by
  unfold Function.invoke
  split
  · exact (accepts_send hhost _).careful
  · exact (silent_throw _).careful

/-- Every call on a table or a function. -/
theorem careful_call (o : EntityOperation) : Careful host o.call := by
  cases o with
  | find t condition options =>
    exact (careful_find hhost t condition options).bind fun _ => accepts_pure _
  | findJson t condition options =>
    exact (careful_findJson hhost t condition options).bind fun _ => accepts_pure _
  | findById t id => exact (careful_findById hhost t id).bind fun _ => accepts_pure _
  | search t keys term => exact (careful_search hhost t keys term).bind fun _ => accepts_pure _
  | save t operation document =>
    exact (careful_save hhost t operation document).bind fun _ => accepts_pure _
  | insert t document => exact (careful_save hhost t .insert document).bind fun _ => accepts_pure _
  | update t document => exact (careful_save hhost t .update document).bind fun _ => accepts_pure _
  | updateById t id document =>
    exact (careful_updateById hhost t id document).bind fun _ => accepts_pure _
  | invoke f args => exact (careful_invoke hhost f args).bind fun _ => accepts_pure _

end Entities

/-! ## Collections -/

/-- A document for a collection under whose name no table is bound. -/
def Database.MustCreate (db : Database) (name : String) (document : Json) : Prop :=
  Database.isObject document = true ∧ db.bound.table? name = none ∧
    ∃ d, Database.collection db.config.defaultSchema name = .ok d

/-- The collection is created before the document is looked into. -/
def Operation.CreatesFirst (db : Database) : Operation → Prop
  | .saveDocument _ name document => db.MustCreate name document
  | .insertDocument name document => db.MustCreate name document
  | .updateDocument name document => db.MustCreate name document
  | _ => False

section Collections

open Call Database

variable (hhost : host.RefusesNothing)
include hhost

theorem accepts_sendAll : ∀ statements : List Sql, Accepts host (sendAll statements)
  | [] => accepts_pure ()
  | _ :: rest => (accepts_send hhost _).bind fun _ => accepts_sendAll rest

omit hhost in
theorem sent_sendAll_ne_nil {statements : List Sql} (h : statements ≠ []) (state : σ) :
    (Call.run host (sendAll statements) state).sent ≠ [] := by
  obtain ⟨sql, rest, rfl⟩ := List.exists_cons_of_ne_nil h
  have hfirst : (Call.run host (send (.ofSql sql [] false)) state).sent =
      [.ofSql sql [] false] := rfl
  rw [sendAll, run_bind]
  dsimp only
  split
  · rw [Outcome.sent_afterAll, hfirst]
    simp
  · exact hfirst ▸ List.cons_ne_nil _ _

omit hhost in
theorem creation_ne_nil (defaultSchema : String) (d : TableDescriptor) :
    creation defaultSchema d ≠ [] := by
  simp [creation]

theorem refused_createCollection {name : String} {db : Database} {state : σ} {e : DbError}
    (h : (((createCollection name).session db).run host state).value.1 = .error e)
    (hkind : e.kind = .invalidArgument) :
    (((createCollection name).session db).run host state).sent = [] ∧
      (((createCollection name).session db).run host state).value.2 = db := by
  cases hd : collection db.config.defaultSchema name with
  | error r =>
    rw [session_createCollection_of_error hd]
    exact ⟨rfl, rfl⟩
  | ok d =>
    rw [run_createCollection host hd] at h
    dsimp only at h
    split at h
    · cases h
    · rename_i e' he
      cases h
      exact absurd hkind (accepts_sendAll hhost _ _ _ he)

/-- A refusal by a collection is silent unless the collection had to be
created. -/
theorem refused_saveDocument_iff {operation : SaveOperation} {name : String} {document : Json}
    {db : Database} {state : σ} {e : DbError}
    (h : (((saveDocument operation name document).session db).run host state).value.1 = .error e)
    (hkind : e.kind = .invalidArgument) :
    ((((saveDocument operation name document).session db).run host state).sent = [] ∧
      (((saveDocument operation name document).session db).run host state).value.2 = db) ↔
      ¬ db.MustCreate name document := by
  cases hobj : isObject document with
  | false =>
    rw [session_saveDocument_of_not_object hobj]
    refine iff_of_true ⟨rfl, rfl⟩ ?_
    rintro ⟨hobj', -, -⟩
    rw [hobj] at hobj'
    cases hobj'
  | true =>
    cases htable : db.bound.table? name with
    | some table =>
      rw [session_saveDocument_of_bound hobj htable, Action.run_call] at h ⊢
      refine iff_of_true ⟨careful_save hhost table operation document state e h hkind, rfl⟩ ?_
      rintro ⟨-, hnone, -⟩
      rw [htable] at hnone
      cases hnone
    | none =>
      rw [session_saveDocument_of_not_bound hobj htable, Action.run_bind] at h ⊢
      dsimp only at h ⊢
      cases hd : collection db.config.defaultSchema name with
      | error r =>
        rw [session_createCollection_of_error hd]
        refine iff_of_true ⟨rfl, rfl⟩ ?_
        rintro ⟨-, -, d, hd'⟩
        rw [hd] at hd'
        cases hd'
      | ok d =>
        refine iff_of_false ?_ (not_not_intro ⟨hobj, htable, d, hd⟩)
        have hsent :
            (Call.run host (sendAll (creation db.config.defaultSchema d)) state).sent ≠ [] :=
          sent_sendAll_ne_nil (creation_ne_nil _ d) state
        rw [run_createCollection host hd] at h ⊢
        dsimp only at h ⊢
        cases hout : (Call.run host (sendAll (creation db.config.defaultSchema d)) state).value with
        | error e' =>
          rw [hout] at h
          cases h
          exact absurd hkind (accepts_sendAll hhost _ _ _ hout)
        | ok _ =>
          rintro ⟨hnil, -⟩
          exact hsent (List.append_eq_nil_iff.mp ((Outcome.sent_afterAll _ _).symm.trans hnil)).1

end Collections

/-! ## Every operation -/

/-- An operation that refuses its arguments has sent nothing and bound
nothing, unless it has created the collection that it saves to. -/
theorem refused_silently_iff (hhost : host.RefusesNothing) (o : Operation) {db : Database}
    {state : σ} {e : DbError} (h : (o.run host db state).value.1 = .error e)
    (hkind : e.kind = .invalidArgument) :
    ((o.run host db state).sent = [] ∧ (o.run host db state).value.2 = db) ↔
      ¬ o.CreatesFirst db := by
  cases o with
  | ofEntity o =>
    rw [Operation.run, Operation.action, Action.run_call] at h ⊢
    exact iff_of_true ⟨careful_call hhost o state e h hkind, rfl⟩ id
  | invoke path args =>
    rw [Operation.run_invoke] at h ⊢
    have hcareful : Call.Careful host (db.invoke path args) :=
      (Call.silent_done _).bind_careful fun f => careful_invoke hhost f args
    exact iff_of_true ⟨hcareful state e (map_eq_error h) hkind, rfl⟩ id
  | saveDocument operation name document =>
    rw [Operation.run, Operation.action, Action.run_map] at h ⊢
    exact refused_saveDocument_iff hhost (map_eq_error h) hkind
  | insertDocument name document =>
    rw [Operation.run, Operation.action, Action.run_map] at h ⊢
    exact refused_saveDocument_iff hhost (map_eq_error h) hkind
  | updateDocument name document =>
    rw [Operation.run, Operation.action, Action.run_map] at h ⊢
    exact refused_saveDocument_iff hhost (map_eq_error h) hkind
  | createCollection name =>
    rw [Operation.run, Operation.action, Action.run_map] at h ⊢
    exact iff_of_true (refused_createCollection hhost (map_eq_error h) hkind) id

/-- Answers every statement with no rows. -/
def Host.silent : Host Unit where
  connect _ _ := (⟨some 0, .ok ()⟩, ())
  execute _ _ := (.ok .empty, ())
  newId _ := (.text "new", ())

theorem Host.silent_refusesNothing : Host.silent.RefusesNothing := by
  rintro statement state e ⟨⟩

/-- Without a bound table, the update of a document that has no id creates the
collection and binds it before it is refused. -/
theorem refused_update_creates_collection :
    Host.silent.RefusesNothing ∧ DbError.kind (.invalid (.keyMissing "id")) = .invalidArgument ∧
    ((Operation.updateDocument "notes" (.obj [("a", .num (.ofInt64 1))])).run Host.silent
      (.ofConfig {}) ()).value.1 = .error (.invalid (.keyMissing "id")) ∧
    ((Operation.updateDocument "notes" (.obj [("a", .num (.ofInt64 1))])).run Host.silent
      (.ofConfig {}) ()).sent.length = 2 ∧
    ((Operation.updateDocument "notes" (.obj [("a", .num (.ofInt64 1))])).run Host.silent
      (.ofConfig {}) ()).value.2.bound.size = 1 :=
  ⟨Host.silent_refusesNothing, rfl, rfl, rfl, rfl⟩

/-- The same update of a collection that is bound. -/
theorem refused_silently_iff_bound_collection :
    Host.silent.RefusesNothing ∧ DbError.kind (.invalid (.keyMissing "id")) = .invalidArgument ∧
    ∃ db : Database, db.bound.size = 1 ∧
    ((Operation.updateDocument "notes" (.obj [])).run Host.silent db ()).value.1 =
      .error (.invalid (.keyMissing "id")) ∧
    ((((Operation.updateDocument "notes" (.obj [])).run Host.silent db ()).sent = [] ∧
      ((Operation.updateDocument "notes" (.obj [])).run Host.silent db ()).value.2 = db) ↔
      ¬ (Operation.updateDocument "notes" (.obj [])).CreatesFirst db) := by
  let db := Database.bind (.ofConfig {}) (.table ⟨"public", "notes", "id", ⟨"public", 1000⟩⟩)
  have hvalue : ((Operation.updateDocument "notes" (.obj [])).run Host.silent db ()).value.1 =
      .error (.invalid (.keyMissing "id")) := rfl
  exact ⟨Host.silent_refusesNothing, rfl, db, rfl, hvalue,
    refused_silently_iff Host.silent_refusesNothing _ hvalue rfl⟩

end DocStore
