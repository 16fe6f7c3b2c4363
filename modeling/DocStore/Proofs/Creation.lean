import DocStore.Proofs.Collection
import DocStore.Proofs.Sql.Built
import DocStore.Proofs.Text.Split

/-!
# Creating a collection

The name of a collection is read, the statements that create it are put
together, and the table is bound by functions that do not know of each
other. They agree: the name has one part or two (`IsCollection`), and what
is bound under these is the table that the statements create
(`collectionTable`).

The statements are sent in order up to the first one that is refused, and
only if none is refused the table is bound.

Main statement: `createsCollection`.
-/

namespace DocStore

variable {σ : Type}

/-! ## The parts of a name -/

/-- The name of a collection is one part or two, between dots and trimmed, none
of which is empty; of one part, the schema is the default one. -/
inductive IsCollection (defaultSchema name : String) : EntityKey → Prop
  | bare {table : String} (hparts : (Text.splitOn '.' name).map Text.trim = [table])
    (htable : table ≠ "") : IsCollection defaultSchema name ⟨defaultSchema, table⟩
  | qualified {schema table : String}
    (hparts : (Text.splitOn '.' name).map Text.trim = [schema, table]) (hschema : schema ≠ "")
    (htable : table ≠ "") : IsCollection defaultSchema name ⟨schema, table⟩

namespace Database

section Name

variable {defaultSchema : String}

theorem collection_of_one {table : String} (h : '.' ∉ table.toList)
    (hdefault : defaultSchema ≠ "") :
    collection defaultSchema table =
      if Text.trim table = "" then .error (.badCollection table)
      else .ok ⟨defaultSchema, Text.trim table, none⟩ := by
  have hdot : '.' ∉ (Text.trim table).toList := mt (Text.mem_trim_iff (by decide)).mp h
  simp [collection, Text.cut?_dot_eq_none_iff.mpr h, hdefault, hdot]

theorem collection_of_two {schema table : String} (hschema : '.' ∉ schema.toList)
    (htable : '.' ∉ table.toList) :
    collection defaultSchema (schema ++ "." ++ table) =
      if Text.trim schema = "" ∨ Text.trim table = "" then
        .error (.badCollection (schema ++ "." ++ table))
      else .ok ⟨Text.trim schema, Text.trim table, none⟩ := by
  have hdot : '.' ∉ (Text.trim table).toList := mt (Text.mem_trim_iff (by decide)).mp htable
  simp [collection, Text.cut?_dot_eq_some_iff.mpr ⟨rfl, hschema⟩, hdot]

theorem collection_of_more {schema rest : String} (hschema : '.' ∉ schema.toList)
    (hrest : '.' ∈ rest.toList) :
    collection defaultSchema (schema ++ "." ++ rest) =
      .error (.badCollection (schema ++ "." ++ rest)) := by
  have hdot : '.' ∈ (Text.trim rest).toList := (Text.mem_trim_iff (by decide)).mpr hrest
  simp [collection, Text.cut?_dot_eq_some_iff.mpr ⟨rfl, hschema⟩, hdot]

theorem isCollection_of_one {table : String} (h : '.' ∉ table.toList) {key : EntityKey} :
    IsCollection defaultSchema table key ↔
      Text.trim table ≠ "" ∧ key = ⟨defaultSchema, Text.trim table⟩ := by
  have hparts : (Text.splitOn '.' table).map Text.trim = [Text.trim table] := by
    rw [Text.splitOn_of_not_mem h, List.map_singleton]
  constructor
  · rintro (⟨hone, htable⟩ | ⟨htwo, -, -⟩)
    · rw [hparts] at hone
      cases hone
      exact ⟨htable, rfl⟩
    · rw [hparts] at htwo
      cases htwo
  · rintro ⟨htable, rfl⟩
    exact .bare hparts htable

theorem isCollection_of_two {schema table : String} (hschema : '.' ∉ schema.toList)
    (htable : '.' ∉ table.toList) {key : EntityKey} :
    IsCollection defaultSchema (schema ++ "." ++ table) key ↔
      (Text.trim schema ≠ "" ∧ Text.trim table ≠ "") ∧
        key = ⟨Text.trim schema, Text.trim table⟩ := by
  have hparts : (Text.splitOn '.' (schema ++ "." ++ table)).map Text.trim =
      [Text.trim schema, Text.trim table] := by
    rw [Text.splitOn_append_dot, Text.splitOn_of_not_mem hschema, Text.splitOn_of_not_mem htable]
    rfl
  constructor
  · rintro (⟨hone, -⟩ | ⟨htwo, hs, ht⟩)
    · rw [hparts] at hone
      cases hone
    · rw [hparts] at htwo
      cases htwo
      exact ⟨⟨hs, ht⟩, rfl⟩
  · rintro ⟨⟨hs, ht⟩, rfl⟩
    exact .qualified hparts hs ht

theorem not_isCollection_of_more {schema rest : String} (hschema : '.' ∉ schema.toList)
    (hrest : '.' ∈ rest.toList) (key : EntityKey) :
    ¬ IsCollection defaultSchema (schema ++ "." ++ rest) key := by
  obtain ⟨a, b, -, rfl⟩ := (Text.exists_first_dot rest).resolve_left (not_not_intro hrest)
  have hlength :
      2 < ((Text.splitOn '.' (schema ++ "." ++ (a ++ "." ++ b))).map Text.trim).length := by
    have ha := List.length_pos_of_ne_nil (Text.splitOn_ne_nil '.' a)
    have hb := List.length_pos_of_ne_nil (Text.splitOn_ne_nil '.' b)
    rw [List.length_map, Text.splitOn_append_dot, Text.splitOn_append_dot,
      Text.splitOn_of_not_mem hschema, List.length_append, List.length_append,
      List.length_singleton]
    omega
  rintro (⟨hone, -⟩ | ⟨htwo, -, -⟩)
  · rw [hone, List.length_singleton] at hlength
    omega
  · rw [htwo, List.length_cons, List.length_singleton] at hlength
    omega

/-- A name is accepted just if it is the name of a collection, and read as such. -/
theorem collection_cases (hdefault : defaultSchema ≠ "") (name : String) :
    (∃ key, (∀ key', IsCollection defaultSchema name key' ↔ key' = key) ∧
        collection defaultSchema name = .ok ⟨key.schema, key.name, none⟩) ∨
      (∀ key, ¬ IsCollection defaultSchema name key) ∧
        collection defaultSchema name = .error (.badCollection name) := by
  rcases Text.exists_first_dot name with hone | ⟨schema, rest, hschema, rfl⟩
  · rw [collection_of_one hone hdefault]
    simp only [isCollection_of_one hone]
    split
    · rename_i hblank
      exact .inr ⟨fun key h => h.1 hblank, rfl⟩
    · rename_i htable
      exact .inl ⟨_, fun key => and_iff_right htable, rfl⟩
  · by_cases hrest : '.' ∈ rest.toList
    · exact .inr ⟨not_isCollection_of_more hschema hrest, collection_of_more hschema hrest⟩
    · rw [collection_of_two hschema hrest]
      simp only [isCollection_of_two hschema hrest]
      split
      · rename_i hblank
        exact .inr ⟨fun key h => hblank.elim h.1.1 h.1.2, rfl⟩
      · rename_i hparts
        exact .inl ⟨_, fun key => and_iff_right (not_or.mp hparts), rfl⟩

end Name

end Database

/-! ## The statements -/

theorem Sql.render_append (a b : Sql) : Sql.render (a ++ b) = a.render ++ b.render := by
  simp [Sql.render, String.ofList_append]

theorem Sql.render_text_cons (s : String) (sql : Sql) :
    Sql.render (.text s :: sql) = s ++ sql.render := by
  simp [Sql.render, Sql.Piece.chars, String.ofList_append]

theorem Sql.render_name_cons (s : String) (sql : Sql) :
    Sql.render (.name s :: sql) = Sql.render [.name s] ++ sql.render :=
  Sql.render_append [.name s] sql

namespace Table

/-- What is written to create a table of documents: a schema if it is not the
default one, the table by the name that its own statements use, and its index. -/
def creationTexts (t : Table) : List String :=
  (if t.schema = t.settings.defaultSchema then []
    else ["create schema if not exists " ++ Sql.render [.name t.schema]]) ++
  ["create table if not exists " ++ t.sqlName.render
      ++ " (id text primary key, body jsonb not null)",
    "create index if not exists " ++ Sql.render [.name (searchIndexName t.qualifiedName)]
      ++ " on " ++ t.sqlName.render ++ " using gin (to_tsvector('simple', body::text))"]

def creationStatements (t : Table) : List Statement :=
  t.creationTexts.map fun text => ⟨text, [], false⟩

end Table

namespace Database

/-- The table of a collection. -/
def collectionTable (db : Database) (key : EntityKey) : Table :=
  ⟨key.schema, key.name, "id", db.settings⟩

variable (db : Database) (key : EntityKey)

theorem render_tableSql :
    (tableSql db.config.defaultSchema ⟨key.schema, key.name, none⟩).render =
      "create table if not exists " ++ (db.collectionTable key).sqlName.render
        ++ " (id text primary key, body jsonb not null)" := by
  rw [tableSql, List.cons_append, Sql.render_text_cons, Sql.render_append, Sql.render_text_cons,
    String.append_assoc]
  rfl

theorem render_indexSql :
    (indexSql db.config.defaultSchema ⟨key.schema, key.name, none⟩).render =
      "create index if not exists "
        ++ Sql.render [.name (searchIndexName (db.collectionTable key).qualifiedName)]
        ++ " on " ++ (db.collectionTable key).sqlName.render
        ++ " using gin (to_tsvector('simple', body::text))" := by
  rw [indexSql, List.cons_append, List.cons_append, List.cons_append, Sql.render_text_cons,
    Sql.render_name_cons, Sql.render_text_cons, Sql.render_append, Sql.render_text_cons]
  simp only [String.append_assoc]
  rfl

theorem map_render_creation :
    (creation db.config.defaultSchema ⟨key.schema, key.name, none⟩).map Sql.render =
      (db.collectionTable key).creationTexts := by
  rw [creation, List.map_append, List.map_cons, List.map_singleton, render_tableSql,
    render_indexSql]
  refine congrArg (· ++ _) ?_
  rw [schemaSql, apply_ite (List.map _), List.map_singleton, Sql.render_text_cons]
  rfl

theorem map_ofSql_creation :
    ((creation db.config.defaultSchema ⟨key.schema, key.name, none⟩).map fun sql =>
      .ofSql sql [] false) = (db.collectionTable key).creationStatements := by
  rw [Table.creationStatements, ← map_render_creation, List.map_map]
  rfl

end Database

/-! ## Creating a collection -/

namespace Database

/-- To bind the table at the end sends nothing. -/
theorem replies_createCollection (host : Host σ) {db : Database} {name : String}
    {d : TableDescriptor} (hd : collection db.config.defaultSchema name = .ok d) (state : σ) :
    ((createCollection name).session db).replies host state =
      (sendAll (creation db.config.defaultSchema d)).replies host state := by
  rw [session_createCollection_of_ok hd, Session.replies_bind]
  refine List.append_right_eq_self.mpr ?_
  cases ((ExceptT.run (sendAll (creation db.config.defaultSchema d))).run host state).value <;> rfl

/-- The second database is the first one with the entity bound in its place. -/
structure BindsOnly (db after : Database) (e : Entity) : Prop where
  config : after.config = db.config
  defaultSchema : after.bound.defaultSchema = db.bound.defaultSchema
  lookup? : ∀ schema name, after.bound.lookup? schema name =
    if e.schema = schema ∧ e.name = name then some e else db.bound.lookup? schema name
  inTree? : ∀ schema name, after.bound.inTree? schema name =
    if e.schema = schema ∧ e.name = name then some e else db.bound.inTree? schema name

theorem bindsOnly_bind (db : Database) (e : Entity) : BindsOnly db (db.bind e) e where
  config := rfl
  defaultSchema := rfl
  lookup? := db.bound.lookup?_bind e
  inTree? := db.bound.inTree?_bind e

/-- What the creation of a collection does, by its name. -/
structure CreatesCollection (db : Database) (name : String) : Prop where
  /-- A name that is not that of a collection is refused. -/
  refused : (∀ key, ¬ IsCollection db.config.defaultSchema name key) →
    ∀ {σ : Type} (host : Host σ) state,
      let out := ((createCollection name).session db).run host state
      out.requests = [] ∧ out.value = (.error (.invalid (.badCollection name)), db)
  /-- The statements are those that create the table. -/
  texts : ∀ key, IsCollection db.config.defaultSchema name key →
    db.creationTexts name = .ok (db.collectionTable key).creationTexts
  /-- By the rules of quoting, the table has the schema and the name of the
  collection, in its own statements and in those that create it. -/
  named : ∀ key, IsCollection db.config.defaultSchema name key →
    Sql.lex (db.collectionTable key).sqlName.chars =
        some (Template.entity db.config.defaultSchema key.schema key.name) ∧
      List.Forall₂ Statement.ReadsAs (db.collectionTable key).creationStatements
        (Template.creation db.config.defaultSchema key)
  /-- They are sent in order up to the first that is refused, and only if none
  is refused anything changes: the table is bound. -/
  sends : ∀ key, IsCollection db.config.defaultSchema name key →
    ∀ {σ : Type} (host : Host σ) state,
      let out := ((createCollection name).session db).run host state
      let t := db.collectionTable key
      ∃ result,
        Delivers t.creationStatements out.requests
          (((createCollection name).session db).replies host state) result ∧
        match result with
        | .ok _ => out.value.1 = .ok t ∧ BindsOnly db out.value.2 (.table t)
        | .error e => out.value = (.error e, db)

section Accepted

variable {db : Database} {name : String} {key : EntityKey}
  (hd : collection db.config.defaultSchema name = .ok ⟨key.schema, key.name, none⟩)
include hd

theorem creationTexts_of_collection :
    db.creationTexts name = .ok (db.collectionTable key).creationTexts := by
  rw [creationTexts, hd, ← map_render_creation]
  rfl

theorem sends_of_collection (host : Host σ) (state : σ) :
    let out := ((createCollection name).session db).run host state
    let t := db.collectionTable key
    ∃ result,
      Delivers t.creationStatements out.requests
        (((createCollection name).session db).replies host state) result ∧
      match result with
      | .ok _ => out.value.1 = .ok t ∧ BindsOnly db out.value.2 (.table t)
      | .error e => out.value = (.error e, db) := by
  have hdelivers := delivers_sendAll host
    (creation db.config.defaultSchema ⟨key.schema, key.name, none⟩) state
  rw [map_ofSql_creation] at hdelivers
  rw [replies_createCollection host hd, run_createCollection host hd]
  dsimp only
  generalize Call.run host (sendAll
    (creation db.config.defaultSchema ⟨key.schema, key.name, none⟩)) state = out at hdelivers ⊢
  obtain ⟨result, requests, state'⟩ := out
  cases result with
  | ok _ => exact ⟨_, hdelivers, rfl, bindsOnly_bind db _⟩
  | error e => exact ⟨_, hdelivers, rfl⟩

end Accepted

/-- A name is refused, or read in one way, under which the collection is created
and bound. -/
theorem createsCollection {db : Database} (hdefault : db.config.defaultSchema ≠ "")
    (name : String) : db.CreatesCollection name := by
  rcases collection_cases hdefault name with ⟨key, hkey, hd⟩ | ⟨hnone, hd⟩
  · refine ⟨fun h => absurd ((hkey key).mpr rfl) (h key), ?_, ?_, ?_⟩
    · intro key' h
      obtain rfl := (hkey key').mp h
      exact creationTexts_of_collection hd
    · intro key' h
      refine ⟨(spells_entity _ _ _).lex, ?_⟩
      rw [← map_ofSql_creation, List.forall₂_map_left_iff]
      exact readsAs_creation _ _
    · intro key' h σ host state
      obtain rfl := (hkey key').mp h
      exact sends_of_collection hd host state
  · refine ⟨fun _ σ host state => ?_, fun key h => absurd h (hnone key),
      fun key h => absurd h (hnone key), fun key h => absurd h (hnone key)⟩
    rw [session_createCollection_of_error hd]
    exact ⟨rfl, rfl⟩

/-- With the default configuration, for a collection in another schema. -/
theorem createsCollection_sales_notes :
    (ofConfig {}).config.defaultSchema ≠ "" ∧
      IsCollection (ofConfig {}).config.defaultSchema " sales.notes " ⟨"sales", "notes"⟩ ∧
      (ofConfig {}).CreatesCollection " sales.notes " := by
  have hdefault : (ofConfig {}).config.defaultSchema ≠ "" := by decide
  exact ⟨hdefault, .qualified (by decide) (by decide) (by decide),
    createsCollection hdefault " sales.notes "⟩

end Database

end DocStore
