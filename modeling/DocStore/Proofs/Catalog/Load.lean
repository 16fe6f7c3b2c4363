import DocStore.Proofs.Catalog.Rows

/-!
# Loading

A load reads the replies to the discovery queries whole before it binds
anything. So either all rows can be read, and each schema and name holds
what its rows say or what it held before, or nothing changes (`Loads`).
Functions are bound after tables, so of a table and a function of one
name the function stays. A load depends on the replies only: to load the
two kinds one after the other is to load both, and to load again from the
same replies changes nothing.

Rows that can be read need not be rows of functions that can be made. At
the first function with more parameters than there is room for the load
breaks off, and the tables and the functions before it are bound
(`load_breaks_off_after_tables`).

Main statement: `loadSpec`.
-/

namespace DocStore

variable {σ α β γ : Type}

/-! ## Replies -/

/-- What is answered to the two discovery queries. -/
structure Discovery where
  tables : Except DbError QueryResult
  functions : Except DbError QueryResult

namespace Discovery

def TablesReadable (d : Discovery) : Prop := ∃ r, d.tables = .ok r ∧ Catalog.ReadableTables r

def FunctionsReadable (d : Discovery) : Prop :=
  ∃ r, d.functions = .ok r ∧ Catalog.ReadableFunctions r

/-- No function has more parameters than there is room for. -/
def FunctionsFit (d : Discovery) : Prop :=
  ∀ r, d.functions = .ok r → r.rows.all (Catalog.fits r) = true

/-- The replies without the first function that cannot be made and what follows it. -/
def made (d : Discovery) : Discovery := { d with functions := d.functions.map Catalog.made }

theorem FunctionsFit.made_eq {d : Discovery} (h : d.FunctionsFit) : d.made = d := by
  obtain ⟨tables, functions⟩ := d
  cases functions with
  | error e => rfl
  | ok r => exact congrArg (Discovery.mk tables <| .ok ·) (Catalog.made_eq_self (h r rfl))

/-- The table that the replies have under a schema and a name, for a database. -/
def table? (d : Discovery) (db : Database) (schema name : String) : Option Entity :=
  d.tables.toOption.bind fun r => Catalog.tableAt? db.config.filter db.settings r schema name

def function? (d : Discovery) (db : Database) (schema name : String) : Option Entity :=
  d.functions.toOption.bind fun r => Catalog.functionAt? db.settings r schema name

/-- What the replies have under a schema and a name; a function stands before a table. -/
def entity? (d : Discovery) (db : Database) (schema name : String) : Option Entity :=
  (d.function? db schema name).or (d.table? db schema name)

end Discovery

namespace Host

/-- The partner answers the query for tables so. -/
def AnswersTables (host : Host σ) (state : σ) (filter : TableFilter) (d : Discovery) : Prop :=
  (host.execute (Catalog.tablesQuery filter).statement state).1 = d.tables

def AnswersFunctions (host : Host σ) (state : σ) (d : Discovery) : Prop :=
  (host.execute Catalog.functionsQuery.statement state).1 = d.functions

/-- It answers both, the query for functions second. -/
def Answers (host : Host σ) (state : σ) (filter : TableFilter) (d : Discovery) : Prop :=
  host.AnswersTables state filter d ∧
    host.AnswersFunctions (host.execute (Catalog.tablesQuery filter).statement state).2 d

end Host

namespace Catalog

/-! ## Queries -/

namespace Query

variable {q : Query α}

/-- What is read from a reply. -/
def result (q : Query α) (reply : Except DbError QueryResult) : Except DbError α := do
  (q.read (← reply)).mapError .execution

theorem result_eq_ok_iff {reply : Except DbError QueryResult} {x : α} :
    q.result reply = .ok x ↔ ∃ r, reply = .ok r ∧ q.read r = .ok x := by
  constructor
  · intro h
    obtain ⟨r, hr, h⟩ := bind_eq_ok h
    exact ⟨r, hr, mapError_eq_ok h⟩
  · rintro ⟨r, rfl, h⟩
    show (q.read r).mapError _ = _
    rw [h]
    rfl

theorem exists_result_iff {reply : Except DbError QueryResult} :
    (∃ x, q.result reply = .ok x) ↔ ∃ r, reply = .ok r ∧ ∃ x, q.read r = .ok x := by
  simp only [result_eq_ok_iff]
  exact exists_comm.trans (exists_congr fun r => exists_and_left)

theorem play_ask (host : Host σ) (q : Query α) (state : σ) :
    Call.play host q.ask state =
      (q.result (host.execute q.statement state).1, (host.execute q.statement state).2) := by
  rw [ask, Call.play_bind, Call.play_send]
  rcases host.execute q.statement state with ⟨e | r, after⟩ <;> rfl

theorem value_ask {host : Host σ} {state : σ} {reply : Except DbError QueryResult}
    (h : (host.execute q.statement state).1 = reply) :
    (Call.run host q.ask state).value = q.result reply := by
  rw [← h]
  exact congrArg Prod.fst (play_ask host q state)

end Query

/-- What is read from both replies. -/
def result (filter : TableFilter) (d : Discovery) : Except DbError Catalog := do
  let tables ← (tablesQuery filter).result d.tables
  let functions ← functionsQuery.result d.functions
  return ⟨tables, functions⟩

section Result

variable {filter : TableFilter} {d : Discovery}

theorem exists_tables_iff (filter : TableFilter) :
    (∃ tables, (tablesQuery filter).result d.tables = .ok tables) ↔ d.TablesReadable :=
  Query.exists_result_iff.trans (exists_congr fun _ => and_congr_right' exists_tablesOf_iff)

theorem exists_functions_iff :
    (∃ functions, functionsQuery.result d.functions = .ok functions) ↔ d.FunctionsReadable :=
  Query.exists_result_iff.trans (exists_congr fun _ => and_congr_right' exists_functionsOf_iff)

theorem result_eq_ok_iff {catalog : Catalog} :
    result filter d = .ok catalog ↔
      (tablesQuery filter).result d.tables = .ok catalog.tables ∧
        functionsQuery.result d.functions = .ok catalog.functions := by
  constructor
  · intro h
    obtain ⟨tables, htables, h⟩ := bind_eq_ok h
    obtain ⟨functions, hfunctions, h⟩ := bind_eq_ok h
    cases h
    exact ⟨htables, hfunctions⟩
  · rintro ⟨htables, hfunctions⟩
    rw [result, htables, hfunctions]
    rfl

theorem exists_result_iff :
    (∃ catalog, result filter d = .ok catalog) ↔ d.TablesReadable ∧ d.FunctionsReadable := by
  rw [← exists_tables_iff filter, ← exists_functions_iff]
  constructor
  · rintro ⟨catalog, h⟩
    exact ⟨⟨_, (result_eq_ok_iff.mp h).1⟩, ⟨_, (result_eq_ok_iff.mp h).2⟩⟩
  · rintro ⟨⟨tables, htables⟩, ⟨functions, hfunctions⟩⟩
    exact ⟨⟨tables, functions⟩, result_eq_ok_iff.mpr ⟨htables, hfunctions⟩⟩

end Result

section Run

variable {host : Host σ} {state : σ} {filter : TableFilter} {d : Discovery}

/-- Both replies are read before there is a catalog. -/
theorem value_load (h : host.Answers state filter d) :
    (Call.run host (load filter) state).value = result filter d := by
  have hplay : (Call.play host (load filter) state).1 = result filter d := by
    rw [load, Call.play_bind, Query.play_ask, h.1, result]
    cases (tablesQuery filter).result d.tables with
    | error e => rfl
    | ok tables =>
      dsimp only
      rw [Call.play_bind, Query.play_ask, h.2]
      cases functionsQuery.result d.functions <;> rfl
  exact hplay

end Run

end Catalog

/-! ## What is bound -/

namespace Database

section Bound

variable {db : Database} {d : Discovery}

theorem lookup?_bindTables {tables : List TableDescriptor}
    (h : (Catalog.tablesQuery db.config.filter).result d.tables = .ok tables)
    (schema name : String) :
    (db.bindTables tables).bound.lookup? schema name =
      (d.table? db schema name).or (db.bound.lookup? schema name) := by
  obtain ⟨r, hr, htables⟩ := Catalog.Query.result_eq_ok_iff.mp h
  rw [bindTables, Namespace.lookup?_bindAll, Catalog.bound_tablesOf htables, Discovery.table?, hr]
  rfl

theorem lookup?_bindFunctions {functions : List FunctionDescriptor}
    (h : Catalog.functionsQuery.result d.functions = .ok functions) (schema name : String) :
    (db.bindFunctions functions).2.bound.lookup? schema name =
      (d.made.function? db schema name).or (db.bound.lookup? schema name) := by
  obtain ⟨r, hr, hfunctions⟩ := Catalog.Query.result_eq_ok_iff.mp h
  rw [bindFunctions_eq, bindAll, Namespace.lookup?_bindAll,
    Catalog.bound_functionsOf (Catalog.functionsOf_made hfunctions), Discovery.function?,
    Discovery.made, hr]
  rfl

/-- All functions are bound, or else the load breaks off. -/
theorem isSome_bindFunctions_iff {functions : List FunctionDescriptor}
    (h : Catalog.functionsQuery.result d.functions = .ok functions) :
    (db.bindFunctions functions).1.isSome = true ↔ d.FunctionsFit := by
  obtain ⟨r, hr, hfunctions⟩ := Catalog.Query.result_eq_ok_iff.mp h
  have hall : d.FunctionsFit ↔ functions.all (·.fits) = true := by
    rw [Catalog.all_fits hfunctions, Discovery.FunctionsFit, hr]
    exact ⟨fun hfit => hfit r rfl, fun hfit r' hr' => by cases hr'; exact hfit⟩
  rw [hall, bindFunctions_eq]
  cases functions.all (·.fits) <;> simp

theorem lookup?_bindCatalog {catalog : Catalog}
    (h : Catalog.result db.config.filter d = .ok catalog) (schema name : String) :
    (db.bindCatalog catalog).2.bound.lookup? schema name =
      (d.made.entity? db schema name).or (db.bound.lookup? schema name) := by
  obtain ⟨htables, hfunctions⟩ := Catalog.result_eq_ok_iff.mp h
  rw [bindCatalog, lookup?_bindFunctions hfunctions, lookup?_bindTables htables, Discovery.entity?,
    Option.or_assoc]
  rfl

end Bound

/-! ## Runs -/

/-- With these replies the action binds all that is found in them and leaves
the other bindings. If the replies cannot be read, it fails and leaves the
database as it was; if not all can be made, it breaks off after a part. -/
structure Loads (a : Action (Option α)) (db : Database)
    (given : ∀ {σ : Type}, Host σ → σ → Prop) (readable fit : Prop)
    (found part : String → String → Option Entity) : Prop where
  fails : ¬ readable → ∀ {σ : Type} (host : Host σ) state, given host state →
    ∃ e, ((a.session db).run host state).value = (.error e, db)
  binds : readable → fit → ∀ {σ : Type} (host : Host σ) state, given host state →
    ∃ x after, ((a.session db).run host state).value = (.ok (some x), after) ∧
      ∀ schema name, after.bound.lookup? schema name =
        (found schema name).or (db.bound.lookup? schema name)
  breaks : readable → ¬ fit → ∀ {σ : Type} (host : Host σ) state, given host state →
    ∃ after, ((a.session db).run host state).value = (.ok none, after) ∧
      ∀ schema name, after.bound.lookup? schema name =
        (part schema name).or (db.bound.lookup? schema name)

/-- What a load comes to that reads this. -/
def settled (bind : γ → Database → β × Database) (db : Database) :
    Except DbError γ → Except DbError β × Database
  | .ok x => (.ok (bind x db).1, (bind x db).2)
  | .error e => (.error e, db)

theorem value_loading {host : Host σ} {ask : Config → Call γ} {db : Database} {state : σ}
    {read : Except DbError γ} (hread : (Call.run host (ask db.config) state).value = read)
    (bind : γ → Database → β × Database) :
    (((loading ask bind).session db).run host state).value = settled bind db read := by
  rw [run_loading]
  dsimp only
  rw [hread]
  cases read <;> rfl

theorem loads_of_settled {a : Action (Option α)} {db : Database}
    {given : ∀ {σ : Type}, Host σ → σ → Prop} {readable fit : Prop}
    {found part : String → String → Option Entity} {read : Except DbError γ}
    {bind : γ → Database → Option α × Database}
    (hvalue : ∀ {σ : Type} (host : Host σ) state, given host state →
      ((a.session db).run host state).value = settled bind db read)
    (hreadable : (∃ x, read = .ok x) ↔ readable)
    (hfit : ∀ x, read = .ok x → ((bind x db).1.isSome = true ↔ fit))
    (hlookup : ∀ x, read = .ok x → ∀ schema name,
      (bind x db).2.bound.lookup? schema name =
        (part schema name).or (db.bound.lookup? schema name))
    (hpart : fit → part = found) : Loads a db given readable fit found part where
  fails hnot σ host state h := by
    rw [hvalue host state h]
    cases read with
    | error e => exact ⟨e, rfl⟩
    | ok x => exact absurd (hreadable.mp ⟨x, rfl⟩) hnot
  binds hread hfits σ host state h := by
    obtain ⟨x, rfl⟩ := hreadable.mpr hread
    obtain ⟨y, hy⟩ := Option.isSome_iff_exists.mp ((hfit x rfl).mpr hfits)
    rw [hvalue host state h, settled, hy, ← hpart hfits]
    exact ⟨y, _, rfl, hlookup x rfl⟩
  breaks hread hfits σ host state h := by
    obtain ⟨x, rfl⟩ := hreadable.mpr hread
    have hnone : (bind x db).1 = none :=
      Option.not_isSome_iff_eq_none.mp fun hsome => hfits ((hfit x rfl).mp hsome)
    rw [hvalue host state h, settled, hnone]
    exact ⟨_, rfl, hlookup x rfl⟩

section Run

variable {host : Host σ} {state : σ} {db : Database} {d : Discovery}

theorem value_loadTables (h : host.AnswersTables state db.config.filter d) :
    ((loadTables.session db).run host state).value =
      settled (fun tables db => (tables.length, db.bindTables tables)) db
        ((Catalog.tablesQuery db.config.filter).result d.tables) :=
  value_loading (Catalog.Query.value_ask h) _

theorem value_loadFunctions (h : host.AnswersFunctions state d) :
    ((loadFunctions.session db).run host state).value =
      settled (fun functions db =>
          (db.bindFunctions functions).map (Option.map fun _ => functions.length) id) db
        (Catalog.functionsQuery.result d.functions) :=
  value_loading (Catalog.Query.value_ask h) _

theorem value_load (h : host.Answers state db.config.filter d) :
    ((load.session db).run host state).value =
      settled (fun catalog db => db.bindCatalog catalog) db (Catalog.result db.config.filter d) :=
  value_loading (Catalog.value_load h) _

end Run

/-! ## The three loads -/

theorem loads_loadTables (db : Database) (d : Discovery) :
    Loads (do return some (← loadTables)) db
      (fun host state => host.AnswersTables state db.config.filter d)
      d.TablesReadable True (d.table? db) (d.table? db) := by
  have hvalue {σ : Type} (host : Host σ) (state : σ)
      (h : host.AnswersTables state db.config.filter d) :
      (((do return some (← loadTables) : Action (Option Nat)).session db).run host state).value =
        settled (fun tables db => (some tables.length, db.bindTables tables)) db
          ((Catalog.tablesQuery db.config.filter).result d.tables) := by
    rw [Action.run_map]
    dsimp only
    rw [value_loadTables h]
    cases (Catalog.tablesQuery db.config.filter).result d.tables <;> rfl
  exact loads_of_settled hvalue (Catalog.exists_tables_iff _) (fun _ _ => by simp)
    (fun tables htables => lookup?_bindTables htables) (fun _ => rfl)

theorem loads_loadFunctions (db : Database) (d : Discovery) :
    Loads loadFunctions db (fun host state => host.AnswersFunctions state d) d.FunctionsReadable
      d.FunctionsFit (d.function? db) (d.made.function? db) := by
  refine loads_of_settled (fun host state h => value_loadFunctions h) Catalog.exists_functions_iff
    (fun functions hfunctions => ?_) (fun functions hfunctions => lookup?_bindFunctions hfunctions)
    (fun hfit => by rw [hfit.made_eq])
  exact (Option.isSome_map ..).symm ▸ isSome_bindFunctions_iff hfunctions

theorem loads_load (db : Database) (d : Discovery) :
    Loads load db (fun host state => host.Answers state db.config.filter d)
      (d.TablesReadable ∧ d.FunctionsReadable) d.FunctionsFit (d.entity? db) (d.made.entity? db) :=
  loads_of_settled (fun host state h => value_load h) Catalog.exists_result_iff
    (fun catalog hcatalog => isSome_bindFunctions_iff (Catalog.result_eq_ok_iff.mp hcatalog).2)
    (fun catalog hcatalog => lookup?_bindCatalog hcatalog)
    (fun hfit => by rw [hfit.made_eq])

/-! ## Loads that succeed -/

/-- Only what has been read is bound. -/
theorem settled_eq_ok {bind : γ → Database → β × Database} {db after : Database}
    {read : Except DbError γ} {y : β} (h : settled bind db read = (.ok y, after)) :
    ∃ x, read = .ok x ∧ bind x db = (y, after) := by
  cases read with
  | error e => cases h
  | ok x =>
    cases h
    exact ⟨x, rfl, rfl⟩

/-- What loading from some replies does. -/
structure LoadSpec (db : Database) (d : Discovery) : Prop where
  /-- All tables or none. -/
  tables : Loads (do return some (← loadTables)) db
    (fun host state => host.AnswersTables state db.config.filter d)
    d.TablesReadable True (d.table? db) (d.table? db)
  /-- All functions, or none if they cannot be read, or those before one that cannot be made. -/
  functions : Loads loadFunctions db (fun host state => host.AnswersFunctions state d)
    d.FunctionsReadable d.FunctionsFit (d.function? db) (d.made.function? db)
  /-- All of both, or nothing, or all tables and a part of the functions. -/
  both : Loads load db (fun host state => host.Answers state db.config.filter d)
    (d.TablesReadable ∧ d.FunctionsReadable) d.FunctionsFit (d.entity? db) (d.made.entity? db)
  /-- Tables first and functions then, with whatever partners, come to the same. -/
  split : ∀ {σ₁ σ₂ σ : Type} (host₁ : Host σ₁) state₁ (host₂ : Host σ₂) state₂ (host : Host σ) state
    m between n after, host₁.AnswersTables state₁ db.config.filter d →
    host₂.AnswersFunctions state₂ d → host.Answers state db.config.filter d →
    ((loadTables.session db).run host₁ state₁).value = (.ok m, between) →
    ((loadFunctions.session between).run host₂ state₂).value = (.ok n, after) →
    ((load.session db).run host state).value = (.ok (n.map fun _ => ()), after)
  /-- Another load from the same replies changes nothing. -/
  again : ∀ {σ₁ σ₂ : Type} (host₁ : Host σ₁) state₁ (host₂ : Host σ₂) state₂ after,
    host₁.Answers state₁ db.config.filter d → host₂.Answers state₂ db.config.filter d →
    ((load.session db).run host₁ state₁).value = (.ok (some ()), after) →
    ((load.session after).run host₂ state₂).value = (.ok (some ()), after)

/-- What a catalog binds, as a list. -/
theorem exists_bindCatalog_eq (db : Database) (catalog : Catalog) :
    ∃ entities, (db.bindCatalog catalog).2 = db.bindAll entities := by
  rw [bindCatalog, bindFunctions_eq]
  exact ⟨_, bindAll_bindAll db _ _⟩

/-- To bind a catalog again changes nothing. -/
theorem bindCatalog_again {db : Database} (h : db.bound.Coherent) {d : Discovery}
    {catalog : Catalog} (hcatalog : Catalog.result db.config.filter d = .ok catalog) :
    (db.bindCatalog catalog).2.bindCatalog catalog = db.bindCatalog catalog := by
  refine Prod.ext (by simp only [bindCatalog, bindFunctions_eq]) ?_
  have hfirst := lookup?_bindCatalog hcatalog
  obtain ⟨first, hbound⟩ := exists_bindCatalog_eq db catalog
  rw [hbound] at hfirst ⊢
  -- the filter and the settings are the same, so the replies say the same
  have hcatalog' : Catalog.result (db.bindAll first).config.filter d = .ok catalog := hcatalog
  have hsecond := lookup?_bindCatalog hcatalog'
  obtain ⟨second, hbound'⟩ := exists_bindCatalog_eq (db.bindAll first) catalog
  rw [hbound'] at hsecond ⊢
  have hcoherent := Namespace.coherent_bindAll h first
  have hsame : ((db.bindAll first).bindAll second).bound = (db.bindAll first).bound := by
    refine Namespace.Coherent.eq_of_lookup? (Namespace.coherent_bindAll hcoherent second)
      hcoherent (by simp [bindAll]) fun schema name => ?_
    rw [hsecond, hfirst]
    show (d.made.entity? db schema name).or _ = _
    rw [← Option.or_assoc, Option.or_self]
  exact congrArg (Database.mk db.config) hsame

end Database

/-- Loading from any replies into any database. -/
theorem loadSpec {db : Database} (h : Reachable db) (d : Discovery) : db.LoadSpec d where
  tables := Database.loads_loadTables db d
  functions := Database.loads_loadFunctions db d
  both := Database.loads_load db d
  split host₁ state₁ host₂ state₂ host state m between n after h₁ h₂ hboth htables hfunctions := by
    rw [Database.value_loadTables h₁] at htables
    obtain ⟨tables, ht, hbetween⟩ := Database.settled_eq_ok htables
    cases hbetween
    rw [Database.value_loadFunctions h₂] at hfunctions
    obtain ⟨functions, hf, hafter⟩ := Database.settled_eq_ok hfunctions
    cases hafter
    have hcatalog : Catalog.result db.config.filter d = .ok ⟨tables, functions⟩ :=
      Catalog.result_eq_ok_iff.mpr ⟨ht, hf⟩
    rw [Database.value_load hboth, hcatalog]
    refine Prod.ext (congrArg Except.ok ?_) rfl
    show ((db.bindTables tables).bindFunctions functions).1 = Option.map _ (Option.map _ _)
    cases ((db.bindTables tables).bindFunctions functions).1 <;> rfl
  again host₁ state₁ host₂ state₂ after h₁ h₂ hload := by
    rw [Database.value_load h₁] at hload
    obtain ⟨catalog, hcatalog, hafter⟩ := Database.settled_eq_ok hload
    have hagain := Database.bindCatalog_again h.coherent hcatalog
    rw [hafter] at hagain
    obtain ⟨entities, hentities⟩ := db.exists_bindCatalog_eq catalog
    rw [hafter] at hentities
    obtain rfl : after = db.bindAll entities := hentities
    have hanswers : host₂.Answers state₂ (db.bindAll entities).config.filter d := h₂
    have hcatalog' : Catalog.result (db.bindAll entities).config.filter d = .ok catalog := hcatalog
    rw [Database.value_load hanswers, hcatalog', Database.settled, hagain]

/-- Answers with these replies in turn, and then with no rows. -/
def Host.replying : Host (List (Except DbError QueryResult)) where
  connect _ state := (⟨some 0, .ok ()⟩, state)
  execute _ state := (state.headD (.ok .empty), state.tail)
  newId state := (.null, state)

theorem answers_replying (filter : TableFilter) (d : Discovery) :
    Host.replying.Answers [d.tables, d.functions] filter d :=
  ⟨rfl, rfl⟩

/-- A table with a primary key, and a second row of its name. -/
theorem loadSpec_users :
    Reachable (.ofConfig {}) ∧ ∃ d : Discovery, (Database.ofConfig {}).LoadSpec d ∧
      Host.replying.Answers [d.tables, d.functions] (Database.ofConfig {}).config.filter d ∧
      d.TablesReadable ∧ d.FunctionsReadable ∧ d.FunctionsFit ∧
      d.table? (.ofConfig {}) "public" "users" =
        some (.table ⟨"public", "users", "user_id", ⟨"public", 1000⟩⟩) ∧
      d.function? (.ofConfig {}) "public" "users" = none := by
  let tables : QueryResult := ⟨["schema", "name", "pk"],
    [[.text "public", .text "users", .text "user_id"], [.text "public", .text "users", .null]]⟩
  refine ⟨.new {}, ⟨.ok tables, .ok .empty⟩, loadSpec (.new {}) _, answers_replying _ _,
    ⟨tables, rfl, ?_⟩, ⟨.empty, rfl, ?_⟩, ?_, rfl, rfl⟩
  · intro row hrow
    rcases List.mem_pair.mp hrow with rfl | rfl
    · exact ⟨"public", "users", rfl, rfl⟩
    · exact ⟨"public", "users", rfl, rfl⟩
  · rintro row ⟨⟩
  · rintro r ⟨⟩
    rfl

/-- The table of the first reply is bound when the function of the second one cannot be
made. -/
theorem load_breaks_off_after_tables :
    let tables : QueryResult :=
      ⟨["schema", "name", "pk"], [[.text "public", .text "users", .text "id"]]⟩
    let functions : QueryResult :=
      ⟨["schema", "name", "param_count"], [[.text "public", .text "f", .int 9223372036854775807]]⟩
    let d : Discovery := ⟨.ok tables, .ok functions⟩
    let out := (Database.load.session (.ofConfig {})).run Host.replying [d.tables, d.functions]
    d.TablesReadable ∧ d.FunctionsReadable ∧ ¬ d.FunctionsFit ∧ out.value.1 = .ok none ∧
      (Database.ofConfig {}).bound.entities = [] ∧
      out.value.2.bound.entities = [.table ⟨"public", "users", "id", ⟨"public", 1000⟩⟩] := by
  refine ⟨⟨_, rfl, ?_⟩, ⟨_, rfl, ?_⟩, fun hfit => ?_, rfl, rfl, rfl⟩
  · intro row hrow
    obtain rfl := List.mem_singleton.mp hrow
    exact ⟨"public", "users", rfl, rfl⟩
  · intro row hrow
    obtain rfl := List.mem_singleton.mp hrow
    exact ⟨⟨"public", "f", rfl, rfl⟩, rfl⟩
  · have hfit' := hfit _ rfl
    revert hfit'
    decide

end DocStore
