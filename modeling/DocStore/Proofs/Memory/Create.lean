import DocStore.Proofs.Memory.Save

/-!
# Creating collections in the store

The statements that create a collection all succeed. They add a table
without rows, unless it is there, and so leave every stored body: a save
does to the bodies what it does without them.

Main statements: `play_creation`, `Save.call_cases`, `Save.call_missing`.
-/

namespace DocStore

variable {γ : Type}

namespace Memory

/-! ## Tables -/

theorem get?_create (m : Memory) (name other : String) :
    (m.create name).tables.get? other =
      if name = other then some ((m.tables.get? other).getD []) else m.tables.get? other := by
  unfold create
  split
  · rename_i rows hrows
    split
    · rename_i heq
      rw [← heq, hrows]
      rfl
    · rfl
  · rename_i hnone
    dsimp only
    rw [Entries.get?_insert]
    split
    · rename_i heq
      rw [← heq, hnone]
      rfl
    · rfl

/-- The store works as before and has the same bodies, and no table less. -/
structure SameBodies (m m' : Memory) : Prop where
  failure : m'.failure = m.failure
  bodies : ∀ table id, m'.body? table id = m.body? table id
  tables : ∀ name, m.hasTable name = true → m'.hasTable name = true

theorem sameBodies_self (m : Memory) : m.SameBodies m := ⟨rfl, fun _ _ => rfl, fun _ => id⟩

theorem SameBodies.holdsObjects {m m' : Memory} (h : m.SameBodies m') (hm : m.HoldsObjects) :
    m'.HoldsObjects := by
  intro table id body hbody
  rw [h.bodies] at hbody
  exact hm table id body hbody

theorem sameBodies_create (m : Memory) (name : String) : m.SameBodies (m.create name) where
  failure := by
    unfold create
    split <;> rfl
  bodies table id := by
    rw [body?, body?, get?_create]
    split
    · cases m.tables.get? table <;> rfl
    · rfl
  tables other h := by
    rw [hasTable, Entries.contains] at h ⊢
    rw [get?_create]
    split
    · rfl
    · exact h

theorem create_of_hasTable {m : Memory} {name : String} (h : m.hasTable name = true) :
    m.create name = m := by
  obtain ⟨rows, hrows⟩ := Option.isSome_iff_exists.mp h
  rw [create, hrows]

/-- The same, but that a body is put under an id of a table. -/
structure Put (m m' : Memory) (table text : String) (body : Json) : Prop where
  failure : m'.failure = m.failure
  bodies : ∀ other id, m'.body? other id =
    if other = table ∧ id = text then some body else m.body? other id
  tables : ∀ name, m.hasTable name = true → m'.hasTable name = true

theorem SameBodies.put {m m' m'' : Memory} (h : m.SameBodies m') {table text : String}
    {body : Json} (hput : m'.Put m'' table text body) : m.Put m'' table text body where
  failure := hput.failure.trans h.failure
  bodies other id := by
    rw [hput.bodies, h.bodies]
  tables name hname := hput.tables name (h.tables name hname)

theorem Put.holdsObjects {m m' : Memory} {table text : String} {members : Json.Members}
    (h : m.Put m' table text (.obj members)) (hm : m.HoldsObjects) : m'.HoldsObjects := by
  intro other id body hbody
  rw [h.bodies] at hbody
  split at hbody
  · cases hbody
    exact ⟨members, rfl⟩
  · exact hm other id body hbody

theorem hasTable_store {m : Memory} {name : String} (h : m.hasTable name = true) (table : String)
    (rows : Rows) : (m.store table rows).hasTable name = true := by
  rw [hasTable, Entries.contains] at h ⊢
  rw [store, Entries.get?_insert]
  split
  · rfl
  · exact h

theorem put_store {m : Memory} {table : String} {rows : Rows}
    (hrows : m.tables.get? table = some rows) (text : String) (body : Json) :
    m.Put (m.store table (rows.insert text body)) table text body where
  failure := rfl
  bodies other id := by
    rw [body?_store]
    by_cases htable : table = other
    · subst htable
      rw [if_pos rfl, Entries.get?_insert, body?_of_rows hrows]
      by_cases hid : text = id
      · rw [if_pos hid, if_pos ⟨rfl, hid.symm⟩]
      · rw [if_neg hid, if_neg fun h => hid h.2.symm]
    · rw [if_neg htable, if_neg fun h => htable h.1.symm]
  tables _ h := hasTable_store h table _

/-! ## Statements -/

section Execution

variable {m : Memory} (hfail : m.failure = none) {statement : Statement} {rest : List Char}
include hfail

theorem execute_createSchema (h : statement.sql = .ofList ("create schema".toList ++ rest)) :
    m.execute statement = (.ok .empty, m) := by
  rw [execute_eq_of_head hfail h (by decide) (by decide), runStatement, h, form_schema]
  rfl

theorem execute_createIndex (h : statement.sql = .ofList ("create index".toList ++ rest)) :
    m.execute statement = (.ok .empty, m) := by
  rw [execute_eq_of_head hfail h (by decide) (by decide), runStatement, h, form_index]
  rfl

theorem execute_createTable
    (h : statement.sql = .ofList ("create table if not exists ".toList ++ rest)) :
    m.execute statement = (.ok .empty, m.create (Text.firstWord (.ofList rest))) := by
  rw [execute_eq_of_head hfail h (by decide) (by decide), runStatement, h, form_createTable]
  rfl

end Execution

end Memory

open Call

/-! ## The collection -/

/-- What the store takes for the name of a collection that is created. -/
def Memory.createdName (defaultSchema : String) (d : TableDescriptor) : String :=
  Text.firstWord (.ofList ((Sql.qualified defaultSchema d.schema d.name).chars ++
    " (id text primary key, body jsonb not null)".toList))

/-- A table of documents is created under its name. -/
theorem Memory.createdName_eq {t : Table} (ht : t.IsDocuments) :
    createdName t.settings.defaultSchema ⟨t.schema, t.name, none⟩ = t.storedName := by
  have hname : (Sql.qualified t.settings.defaultSchema t.schema t.name).chars =
      t.storedName.toList := chars_sqlName ht
  rw [createdName, hname]
  exact firstWord_storedName ht _

section Creation

variable (next : γ → Cell × γ) {m : Memory} (g : γ)

theorem play_sendAll_cons {sql : Sql} {m' : Memory} {reply : QueryResult} (rest : List Sql)
    (h : m.execute (.ofSql sql [] false) = (.ok reply, m')) :
    play (Memory.host next) (Database.sendAll (sql :: rest)) (m, g) =
      play (Memory.host next) (Database.sendAll rest) (m', g) := by
  show play _ (send (.ofSql sql [] false) >>= _) (m, g) = _
  rw [play_bind, play_send, execute_host, h]

variable (hfail : m.failure = none)
include hfail

theorem play_schemaSql (defaultSchema : String) (d : TableDescriptor) (rest : List Sql) :
    play (Memory.host next) (Database.sendAll (Database.schemaSql defaultSchema d ++ rest)) (m, g) =
      play (Memory.host next) (Database.sendAll rest) (m, g) := by
  unfold Database.schemaSql
  split
  · rfl
  · exact play_sendAll_cons next g _ (Memory.execute_createSchema hfail
      (congrArg String.ofList (Sql.chars_cons _ _)))

/-- Creating a collection adds its table. -/
theorem play_creation (defaultSchema : String) (d : TableDescriptor) :
    play (Memory.host next) (Database.sendAll (Database.creation defaultSchema d)) (m, g) =
      (.ok (), m.create (Memory.createdName defaultSchema d), g) := by
  have htable : m.execute (.ofSql (Database.tableSql defaultSchema d) [] false) =
      (.ok .empty, m.create (Memory.createdName defaultSchema d)) :=
    Memory.execute_createTable hfail (congrArg String.ofList (by
      rw [Database.tableSql]
      simp only [List.cons_append, Sql.chars_cons, Sql.chars_append]
      rfl))
  have hfail' : (m.create (Memory.createdName defaultSchema d)).failure = none := by
    rw [(m.sameBodies_create _).failure, hfail]
  rw [Database.creation, play_schemaSql next g hfail, play_sendAll_cons next g _ htable]
  exact play_sendAll_cons next g [] (Memory.execute_createIndex hfail'
    (congrArg String.ofList (Sql.chars_cons _ _)))

end Creation

/-! ## Saves to collections -/

namespace Save

/-- The store when the table of the save has been created, if it is to be. -/
def prepared (s : Save) (m : Memory) : Memory :=
  if s.creates then m.create s.table.storedName else m

theorem sameBodies_prepared (s : Save) (m : Memory) : m.SameBodies (s.prepared m) := by
  unfold prepared
  split
  · exact m.sameBodies_create s.table.storedName
  · exact m.sameBodies_self

theorem prepared_of_hasTable {s : Save} {m : Memory} (h : m.hasTable s.table.storedName = true) :
    s.prepared m = m := by
  unfold prepared
  split
  · exact Memory.create_of_hasTable h
  · rfl

/-- The table is there, or will be. -/
def Reaches (s : Save) (m : Memory) : Prop :=
  s.creates = true ∨ m.hasTable s.table.storedName = true

theorem Reaches.rows {s : Save} {m : Memory} (h : s.Reaches m) :
    ∃ rows, (s.prepared m).tables.get? s.table.storedName = some rows := by
  rcases h with h | h
  · rw [prepared, if_pos h, Memory.get?_create, if_pos rfl]
    exact ⟨_, rfl⟩
  · rw [prepared_of_hasTable h]
    exact Option.isSome_iff_exists.mp h

theorem play_call (next : γ → Cell × γ) {s : Save} (ht : s.table.IsDocuments) {m : Memory}
    (hfail : m.failure = none) (g : γ) :
    play (Memory.host next) s.call (m, g) =
      play (Memory.host next) (s.table.save s.operation (.obj s.fields)) (s.prepared m, g) := by
  have hcreation : play (Memory.host next) (Database.sendAll s.creation) (m, g) =
      (.ok (), s.prepared m, g) := by
    unfold creation prepared
    split
    · rw [play_creation next g hfail, Memory.createdName_eq ht]
    · rfl
  show play _ (Database.sendAll s.creation >>= _) (m, g) = _
  rw [play_bind, hcreation]

section Call

variable (next : γ → Cell × γ) {s : Save} (ht : s.table.IsDocuments) {m : Memory}
  (hfail : m.failure = none) (hreaches : s.Reaches m)
include ht hfail hreaches

/-- The save fails without a change to what is stored, or stores a body under
one id in its table and nothing anywhere else. -/
theorem call_cases (hobjects : m.HoldsObjects) (g : γ) :
    (∃ e g', play (Memory.host next) s.call (m, g) = (.error e, s.prepared m, g')) ∨
      ∃ text members m' g', s.table.Stores s.operation s.fields (next g).1 m text members ∧
        play (Memory.host next) s.call (m, g) = (.ok (.withId text members), m', g') ∧
        m.Put m' s.table.storedName text (.obj members) := by
  obtain ⟨rows, hrows⟩ := hreaches.rows
  have hprepared := s.sameBodies_prepared m
  have hfail' : (s.prepared m).failure = none := hprepared.failure.trans hfail
  have hobjects' := hprepared.holdsObjects hobjects
  rw [play_call next ht hfail]
  rcases save_cases next ht hfail' hrows g hobjects' s.operation s.fields with
    ⟨e, g', he⟩ | ⟨text, members, g', hstores, hplay⟩
  · exact .inl ⟨e, g', he⟩
  · refine .inr ⟨text, members, _, g', ?_, hplay, hprepared.put (Memory.put_store hrows _ _)⟩
    exact ⟨hstores.used, fun h => (hprepared.bodies _ _).symm.trans (hstores.inserted h),
      hstores.whole⟩

/-- An update of an id that is not stored finds no document. -/
theorem call_missing {g : γ} {id : Cell} {text : String} {statement : Statement}
    (hoperation : s.operation = .update) (hused : s.id? (next g).1 = some id)
    (hid : id.idText? = some text) (hupdate : s.table.updating id s.body = .ok statement)
    (hmissing : m.body? s.table.storedName text = none) :
    play (Memory.host next) s.call (m, g) = (.error (.documentNotFound text), s.prepared m, g) := by
  obtain ⟨rows, hrows⟩ := hreaches.rows
  have hprepared := s.sameBodies_prepared m
  have hfail' : (s.prepared m).failure = none := hprepared.failure.trans hfail
  rw [id?, hoperation] at hused
  rw [← hprepared.bodies] at hmissing
  rw [play_call next ht hfail, hoperation]
  exact save_missing next ht hfail' hrows g (supplied_of_update hused) hid hupdate hmissing

end Call

end Save

end DocStore
