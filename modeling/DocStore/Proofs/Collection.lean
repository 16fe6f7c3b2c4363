import DocStore.Proofs.Exchange
import DocStore.Proofs.Reachable
import DocStore.Proofs.Sending

/-!
# Collections that are created once

A save creates its collection if the path of the collection, taken as it
stands, leads to no table. What it creates is then bound under the schema
and the name of the path without the blanks around them, whatever is bound
there. The two agree unless the path has such blanks, or leads to a
function (`Overlooks`).

Main statement: `createsOnce_iff`.
-/

namespace DocStore

variable {σ : Type} {host : Host σ}

/-! ## Creating statements -/

/-- The statement creates something. -/
def Statement.Creates (s : Statement) : Prop := "create ".toList <+: s.sql.toList

theorem creates_ofSql_iff (sql : Sql) (params : List Cell) (single : Bool) :
    (Statement.ofSql sql params single).Creates ↔ "create ".toList <+: sql.chars := by
  have hsql : (Statement.ofSql sql params single).sql.toList = sql.chars := String.toList_ofList
  rw [Statement.Creates, hsql]

theorem not_creates_of_head {sql : Sql} {c : Char} (hc : c ≠ 'c') (h : sql.chars.head? = some c)
    (params : List Cell) (single : Bool) : ¬ (Statement.ofSql sql params single).Creates := by
  rw [creates_ofSql_iff]
  rintro ⟨rest, hrest⟩
  rw [← hrest] at h
  exact hc (Option.some.inj h).symm

theorem creates_of_mem_creation {defaultSchema : String} {d : TableDescriptor} {sql : Sql}
    (h : sql ∈ Database.creation defaultSchema d) (params : List Cell) (single : Bool) :
    (Statement.ofSql sql params single).Creates := by
  rw [creates_ofSql_iff]
  unfold Database.creation Database.schemaSql at h
  split at h
  · rcases List.mem_pair.mp h with rfl | rfl
    · exact ⟨_, rfl⟩
    · exact ⟨_, rfl⟩
  · rcases List.mem_cons.mp h with rfl | h
    · exact ⟨_, rfl⟩
    · rcases List.mem_pair.mp h with rfl | rfl
      · exact ⟨_, rfl⟩
      · exact ⟨_, rfl⟩

theorem not_creates_insertion (t : Table) (id : Cell) (body : Json.Members) :
    ¬ (t.insertion id body).Creates := by
  refine not_creates_of_head (c := 'i') (by decide) ?_ _ _
  rfl

theorem not_creates_updating {t : Table} {id : Cell} {update : Json.Members} {s : Statement}
    (h : t.updating id update = .ok s) : ¬ s.Creates := by
  rcases updating_cases h with ⟨-, rfl⟩ | ⟨p, segments, -, -, rfl⟩
  · exact not_creates_of_head (c := 'u') (by decide) rfl _ _
  · exact not_creates_of_head (c := 'u') (by decide) rfl _ _

/-- Every save is one statement, and none that creates anything. -/
theorem sendsOne_save_not_creates (t : Table) (operation : SaveOperation) (document : Json) :
    Call.SendsOne host (fun s => ¬ s.Creates) (t.save operation document) := by
  apply Call.sendsOne_save
  · exact fun _ fields _ id => not_creates_insertion t id _
  · exact fun _ fields _ id s h => not_creates_updating h

/-! ## The two readings of a path -/

/-- The schema and the name of a path as it stands. -/
def EntityKey.ofPath (defaultSchema path : String) : EntityKey :=
  match Text.cut? "." path with
  | some (schema, name) => ⟨schema, name⟩
  | none => ⟨defaultSchema, path⟩

def TableDescriptor.key (d : TableDescriptor) : EntityKey := ⟨d.schema, d.name⟩

theorem resolve?_eq (n : Namespace) (path : String) :
    n.resolve? path = n.registry.get? (.ofPath n.defaultSchema path) := by
  unfold Namespace.resolve? EntityKey.ofPath
  cases Text.cut? "." path <;> rfl

namespace Database

/-- The path of a collection leads to no table, but what a save creates would
be bound elsewhere than the path says, or in place of a function. -/
def Overlooks (db : Database) (name : String) : Prop :=
  db.bound.table? name = none ∧ ∃ d, collection db.config.defaultSchema name = .ok d ∧
    (EntityKey.ofPath db.config.defaultSchema name ≠ d.key ∨
      (db.bound.lookup? d.schema d.name).isSome)

/-- The save of a document to a collection, as it runs. -/
def saving (host : Host σ) (db : Database) (operation : SaveOperation) (name : String)
    (document : Json) (state : σ) : Outcome (Except DbError Document × Database) σ :=
  ((saveDocument operation name document).session db).run host state

/-- One statement, which creates nothing, or none if the arguments are refused. -/
def SavesOnly (out : Outcome (Except DbError Document × Database) σ) : Prop :=
  (∃ s, out.sent = [s] ∧ ¬ s.Creates) ∨ out.sent = [] ∧ ∃ r, out.value.1 = .error (.invalid r)

/-- Saves to a collection create it at most once, and only if nothing is bound
in its place. -/
structure CreatesOnce (db : Database) (name : String) : Prop where
  /-- Nothing is created and nothing bound unless the place of the collection
  is free. -/
  creates : ∀ {σ : Type} (host : Host σ) operation document state,
    let out := db.saving host operation name document state
    (∃ s ∈ out.sent, s.Creates) ∨ out.value.2.bound ≠ db.bound →
      ∃ d, collection db.config.defaultSchema name = .ok d ∧
        db.bound.lookup? d.schema d.name = none
  /-- What is bound in the place of the collection stays bound as it is. -/
  keeps : ∀ {σ : Type} (host : Host σ) operation document state d e,
    collection db.config.defaultSchema name = .ok d → db.bound.lookup? d.schema d.name = some e →
      (db.saving host operation name document state).value.2.bound.lookup? d.schema d.name = some e
  /-- After a save that succeeds, another one sends one statement, unless it
  refuses its arguments. -/
  once : ∀ {σ : Type} (host : Host σ) operation document state stored after,
    (db.saving host operation name document state).value = (.ok stored, after) →
      ∀ {σ' : Type} (host' : Host σ') operation' document' state',
        SavesOnly (after.saving host' operation' name document' state')

theorem SavesOnly.not_creates {out : Outcome (Except DbError Document × Database) σ}
    (h : SavesOnly out) {s : Statement} (hs : s ∈ out.sent) : ¬ s.Creates := by
  rcases h with ⟨s', hsent, hnot⟩ | ⟨hsent, -⟩
  · rw [hsent, List.mem_singleton] at hs
    exact hs ▸ hnot
  · rw [hsent] at hs
    cases hs

/-! ## How a save to a collection runs -/

theorem saving_of_bound {db : Database} {name : String} {t : Table}
    (ht : db.bound.table? name = some t) {document : Json} (hobj : isObject document = true)
    (operation : SaveOperation) (state : σ) :
    db.saving host operation name document state =
      let out := Call.run host (t.save operation document) state
      ⟨(out.value, db), out.requests, out.state⟩ := by
  rw [saving, session_saveDocument_of_bound hobj ht, Action.run_call]

theorem saving_of_not_bound {db : Database} {name : String} (ht : db.bound.table? name = none)
    {d : TableDescriptor} (hd : collection db.config.defaultSchema name = .ok d) {document : Json}
    (hobj : isObject document = true) (operation : SaveOperation) (state : σ) :
    db.saving host operation name document state =
      let first := Call.run host (sendAll (creation db.config.defaultSchema d)) state
      match first.value with
      | .ok _ =>
        let t := Table.ofDescriptor db.settings d
        let second := Call.run host (t.save operation document) first.state
        ⟨(second.value, db.bind (.table t)), first.requests ++ second.requests, second.state⟩
      | .error e => ⟨(.error e, db), first.requests, first.state⟩ := by
  rw [saving, session_saveDocument_of_not_bound hobj ht, Action.run_bind,
    run_createCollection host hd]
  dsimp only
  cases (Call.run host (sendAll (creation db.config.defaultSchema d)) state).value with
  | error e => rfl
  | ok _ =>
    dsimp only
    rw [Action.run_call]
    rfl

theorem saving_refused {db : Database} {name : String} {r : Refusal} {document : Json}
    {operation : SaveOperation} {state : σ} (ht : db.bound.table? name = none)
    (hd : collection db.config.defaultSchema name = .error r) (hobj : isObject document = true) :
    db.saving host operation name document state = ⟨(.error (.invalid r), db), [], state⟩ := by
  rw [saving, session_saveDocument_of_not_bound hobj ht, Action.run_bind,
    session_createCollection_of_error hd]
  rfl

/-- A save that need not create its collection changes nothing in the database,
and succeeds only if a table is bound. -/
theorem saving_of_not_mustCreate {db : Database} {name : String} {document : Json}
    (h : ¬ db.MustCreate name document) (host : Host σ) (operation : SaveOperation) (state : σ) :
    let out := db.saving host operation name document state
    SavesOnly out ∧ out.value.2 = db ∧
      ∀ stored, out.value.1 = .ok stored → ∃ t, db.bound.table? name = some t := by
  cases hobj : isObject document with
  | false =>
    rw [saving, session_saveDocument_of_not_object hobj]
    exact ⟨.inr ⟨rfl, _, rfl⟩, rfl, by rintro stored ⟨⟩⟩
  | true =>
    cases ht : db.bound.table? name with
    | some t =>
      rw [saving_of_bound ht hobj]
      exact ⟨sendsOne_save_not_creates t operation document state, rfl, fun _ _ => ⟨t, rfl⟩⟩
    | none =>
      cases hd : collection db.config.defaultSchema name with
      | ok d => exact absurd ⟨hobj, ht, d, hd⟩ h
      | error r =>
        rw [saving_refused ht hd hobj]
        exact ⟨.inr ⟨rfl, r, rfl⟩, rfl, by rintro stored ⟨⟩⟩

theorem not_mustCreate_of_table? {db : Database} {name : String} {t : Table}
    (ht : db.bound.table? name = some t) (document : Json) : ¬ db.MustCreate name document := by
  rintro ⟨-, hnone, -⟩
  rw [ht] at hnone
  cases hnone

section Bound

variable {db : Database} {name : String} {d : TableDescriptor} {operation : SaveOperation}
  {document : Json} {state : σ}

/-- A save that succeeds leaves the collection bound. -/
theorem after_saving_of_not_bound (ht : db.bound.table? name = none)
    (hd : collection db.config.defaultSchema name = .ok d) (hobj : isObject document = true)
    {stored : Document} {after : Database}
    (hvalue : (db.saving host operation name document state).value = (.ok stored, after)) :
    after = db.bind (.table (.ofDescriptor db.settings d)) := by
  rw [saving_of_not_bound ht hd hobj] at hvalue
  dsimp only at hvalue
  split at hvalue
  · exact (congrArg Prod.snd hvalue).symm
  · cases hvalue

/-- What is bound for a collection is found by the path that says so. -/
theorem table?_of_bound (hdefault : db.bound.defaultSchema = db.config.defaultSchema)
    (hpath : EntityKey.ofPath db.config.defaultSchema name = d.key) :
    (db.bind (.table (.ofDescriptor db.settings d))).bound.table? name =
      some (.ofDescriptor db.settings d) := by
  have hresolved : (db.bound.bind (.table (.ofDescriptor db.settings d))).resolve? name =
      some (.table (.ofDescriptor db.settings d)) := by
    rw [resolve?_eq, Namespace.defaultSchema_bind, hdefault, hpath, Namespace.registry_bind]
    exact Entries.get?_insert_self _ _ _
  rw [bind, Namespace.table?, hresolved]
  rfl

/-- It is not found by another path. -/
theorem table?_of_bound_elsewhere (hdefault : db.bound.defaultSchema = db.config.defaultSchema)
    (hpath : EntityKey.ofPath db.config.defaultSchema name ≠ d.key) :
    (db.bind (.table (.ofDescriptor db.settings d))).bound.table? name = db.bound.table? name := by
  have hresolved : (db.bound.bind (.table (.ofDescriptor db.settings d))).resolve? name =
      db.bound.resolve? name := by
    rw [resolve?_eq, resolve?_eq, Namespace.defaultSchema_bind, hdefault, Namespace.registry_bind,
      Entries.get?_insert, if_neg]
    exact hpath.symm
  rw [bind, Namespace.table?, hresolved, Namespace.table?]

end Bound

/-! ## Creating once -/

/-- Without a table the path says where the collection goes, and nothing is there. -/
theorem free_of_not_overlooks {db : Database} {name : String} (h : ¬ db.Overlooks name)
    (hnone : db.bound.table? name = none) {d : TableDescriptor}
    (hd : collection db.config.defaultSchema name = .ok d) :
    EntityKey.ofPath db.config.defaultSchema name = d.key ∧
      db.bound.lookup? d.schema d.name = none := by
  constructor
  · by_contra hpath
    exact h ⟨hnone, d, hd, .inl hpath⟩
  · by_contra hbound
    exact h ⟨hnone, d, hd, .inr (Option.isSome_iff_ne_none.mpr hbound)⟩

/-- A save that succeeds leaves a table that the path leads to. -/
theorem table?_after_saving {db : Database}
    (hdefault : db.bound.defaultSchema = db.config.defaultSchema) {name : String}
    (h : ¬ db.Overlooks name) {operation : SaveOperation} {document : Json} {state : σ}
    {stored : Document} {after : Database}
    (hvalue : (db.saving host operation name document state).value = (.ok stored, after)) :
    ∃ t, after.bound.table? name = some t := by
  by_cases hmust : db.MustCreate name document
  · obtain ⟨hobj, hnone, d, hd⟩ := hmust
    have hafter : after = db.bind (.table (.ofDescriptor db.settings d)) :=
      after_saving_of_not_bound hnone hd hobj hvalue
    exact ⟨_, hafter ▸ table?_of_bound hdefault (free_of_not_overlooks h hnone hd).1⟩
  · obtain ⟨-, hdb, htable⟩ := saving_of_not_mustCreate hmust host operation state
    rw [hvalue] at hdb htable
    obtain rfl : after = db := hdb
    exact htable stored rfl

theorem createsOnce_of_not_overlooks {db : Database}
    (hdefault : db.bound.defaultSchema = db.config.defaultSchema) {name : String}
    (h : ¬ db.Overlooks name) : db.CreatesOnce name where
  creates host operation document state hout := by
    by_cases hmust : db.MustCreate name document
    · obtain ⟨-, hnone, d, hd⟩ := hmust
      exact ⟨d, hd, (free_of_not_overlooks h hnone hd).2⟩
    · obtain ⟨hsent, hdb, -⟩ := saving_of_not_mustCreate hmust host operation state
      rcases hout with ⟨s, hs, hcreates⟩ | hbound
      · exact absurd hcreates (hsent.not_creates hs)
      · exact absurd (congrArg bound hdb) hbound
  keeps host operation document state d e hd he := by
    by_cases hmust : db.MustCreate name document
    · rw [(free_of_not_overlooks h hmust.2.1 hd).2] at he
      cases he
    · rwa [(saving_of_not_mustCreate hmust host operation state).2.1]
  once host operation document state stored after hvalue σ' host' operation' document' state' := by
    obtain ⟨t, ht⟩ := table?_after_saving hdefault h hvalue
    have hmust : ¬ after.MustCreate name document' := not_mustCreate_of_table? ht document'
    exact (saving_of_not_mustCreate hmust host' operation' state').1

end Database

/-- Stores every document under the same id. -/
def Host.storing : Host Unit where
  connect _ _ := (⟨some 0, .ok ()⟩, ())
  execute _ _ := (.ok ⟨["id", "body"], [[.text "x", .json (.obj [])]]⟩, ())
  newId _ := (.text "new", ())

namespace Database

theorem sendAll_storing : ∀ statements : List Sql,
    (Call.run Host.storing (sendAll statements) ()).value = .ok ()
  | [] => rfl
  | _ :: rest => sendAll_storing rest

theorem mem_sent_sendAll {s : Statement} {statements : List Sql} {state : σ}
    (h : s ∈ (Call.run host (sendAll statements) state).sent) :
    ∃ sql ∈ statements, s = .ofSql sql [] false := by
  obtain ⟨request, hrequest, hs⟩ := List.mem_filterMap.mp h
  have hmem := (delivers_sendAll host statements state).requests_subset hrequest
  rw [List.map_map] at hmem
  obtain ⟨sql, hsql, rfl⟩ := List.mem_map.mp hmem
  cases hs
  exact ⟨sql, hsql, rfl⟩

theorem creates_of_mustCreate {db : Database} {name : String} {document : Json}
    (h : db.MustCreate name document) (host : Host σ) (operation : SaveOperation) (state : σ) :
    ∃ s ∈ (db.saving host operation name document state).sent, s.Creates := by
  obtain ⟨hobj, hnone, d, hd⟩ := h
  have hne : (Call.run host (sendAll (creation db.config.defaultSchema d)) state).sent ≠ [] :=
    sent_sendAll_ne_nil (creation_ne_nil _ d) state
  obtain ⟨s, hs⟩ := List.exists_mem_of_ne_nil _ hne
  obtain ⟨sql, hsql, rfl⟩ := mem_sent_sendAll hs
  refine ⟨_, ?_, creates_of_mem_creation hsql [] false⟩
  rw [saving_of_not_bound hnone hd hobj]
  dsimp only
  split
  · exact (Outcome.sent_afterAll _ _).symm ▸ List.mem_append_left _ hs
  · exact hs

theorem saving_storing {db : Database} {name : String} (ht : db.bound.table? name = none)
    {d : TableDescriptor} (hd : collection db.config.defaultSchema name = .ok d) :
    (db.saving Host.storing .insert name (.obj []) ()).value =
      (.ok ⟨[("id", .str "x")]⟩, db.bind (.table (.ofDescriptor db.settings d))) := by
  rw [saving_of_not_bound ht hd rfl]
  dsimp only
  rw [sendAll_storing]
  rfl

theorem not_overlooks_of_createsOnce {db : Database}
    (hdefault : db.bound.defaultSchema = db.config.defaultSchema) {name : String}
    (h : db.CreatesOnce name) : ¬ db.Overlooks name := by
  rintro ⟨hnone, d, hd, hplace⟩
  cases hlookup : db.bound.lookup? d.schema d.name with
  | some e =>
    -- the first save creates in place of what is bound
    have hmust : db.MustCreate name (.obj []) := ⟨rfl, hnone, d, hd⟩
    have hcreates := creates_of_mustCreate hmust Host.storing .insert ()
    obtain ⟨d', hd', hfree⟩ := h.creates Host.storing .insert (.obj []) () (.inl hcreates)
    rw [hd] at hd'
    cases hd'
    rw [hlookup] at hfree
    cases hfree
  | none =>
    -- the second save does not find what the first one has bound
    have hpath : EntityKey.ofPath db.config.defaultSchema name ≠ d.key := by
      refine hplace.resolve_right fun hsome => ?_
      rw [hlookup] at hsome
      cases hsome
    have hagain := h.once Host.storing .insert (.obj []) () _ _ (saving_storing hnone hd)
      Host.storing .insert (.obj []) ()
    have hmust : (db.bind (.table (.ofDescriptor db.settings d))).MustCreate name (.obj []) :=
      ⟨rfl, (table?_of_bound_elsewhere hdefault hpath).trans hnone, d, hd⟩
    obtain ⟨s, hs, hcreates⟩ := creates_of_mustCreate hmust Host.storing .insert ()
    exact hagain.not_creates hs hcreates

end Database

/-- The saves to a collection create it at most once and replace nothing just
if the look-up sees what a save would bind. -/
theorem createsOnce_iff {db : Database} (h : Reachable db) (name : String) :
    db.CreatesOnce name ↔ ¬ db.Overlooks name :=
  ⟨Database.not_overlooks_of_createsOnce h.defaultSchema_eq,
    Database.createsOnce_of_not_overlooks h.defaultSchema_eq⟩

/-- A new database, and a name without blanks. -/
theorem createsOnce_new_notes :
    Reachable (.ofConfig {}) ∧ (Database.ofConfig {}).CreatesOnce "notes" := by
  refine ⟨.new {}, (createsOnce_iff (.new {}) "notes").mpr ?_⟩
  rintro ⟨-, d, hd, hplace⟩
  cases hd
  rcases hplace with hpath | hbound
  · exact hpath rfl
  · cases hbound

/-- A table is bound with a key of its own; the save to its name after a blank
creates it again and binds it with another key. -/
theorem blank_name_replaces_table :
    ∃ db : Database, Reachable db ∧
      Database.collection db.config.defaultSchema " notes" = .ok ⟨"public", "notes", none⟩ ∧
      (db.bound.lookup? "public" "notes").map Entity.table? =
        some (some ⟨"public", "notes", "nid", ⟨"public", 1000⟩⟩) ∧
      (db.saving Host.storing .insert " notes" (.obj []) ()).sent.map Statement.sql =
        ["create table if not exists \"notes\" (id text primary key, body jsonb not null)",
          "create index if not exists \"idx_notes\" on \"notes\" using gin (to_tsvector('simple', body::text))",
          "insert into \"notes\" (\"id\", body) values ($1, $2) returning *"] ∧
      ((db.saving Host.storing .insert " notes" (.obj []) ()).value.2.bound.lookup? "public"
        "notes").map Entity.table? = some (some ⟨"public", "notes", "id", ⟨"public", 1000⟩⟩) :=
  ⟨_, .change (.new {}) Host.storing () (.bindTable ⟨"public", "notes", some "nid"⟩) rfl, rfl, rfl,
    rfl, rfl⟩

end DocStore
