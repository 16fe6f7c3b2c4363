import DocStore.Proofs.Namespace
import DocStore.Proofs.Operation

/-!
# Databases in use

A database comes from a configuration and changes by what is asked of it,
whatever its partners answer (`Reachable`). All that any action does to a
database is to bind entities with its own settings, one after the other
(`Binds`), so tree and registry agree in every database there can be, and
its default schema is the one of its configuration and of all its entities.

Main statement: `Reachable.exists_bound`.
-/

namespace DocStore

variable {σ α β : Type}

/-! ## Loading, run -/

namespace Database

/-- What is bound depends on the value of the call alone; an error leaves the database
as it was. -/
theorem run_loading (host : Host σ) (ask : Config → Call α)
    (bind : α → Database → β × Database) (db : Database) (state : σ) :
    ((loading ask bind).session db).run host state =
      let out := Call.run host (ask db.config) state
      match out.value with
      | .ok x => ⟨(.ok (bind x db).1, (bind x db).2), out.requests, out.state⟩
      | .error e => ⟨(.error e, db), out.requests, out.state⟩ := by
  show (Action.session (do
    let x ← Action.call (ask db.config)
    modifyGet (bind x)) db).run host state = _
  rw [Action.run_bind, Action.run_call]
  dsimp only
  cases (Call.run host (ask db.config) state).value with
  | error e => rfl
  | ok x =>
    show Outcome.afterAll _
      (Session.run host (.done (Except.ok (bind x db).1, (bind x db).2)) _) = _
    simp [Outcome.afterAll]

def bindAll (db : Database) (entities : List Entity) : Database :=
  { db with bound := db.bound.bindAll entities }

theorem bindAll_bindAll (db : Database) (first second : List Entity) :
    (db.bindAll first).bindAll second = db.bindAll (first ++ second) := by
  simp [bindAll, Namespace.bindAll]

end Database

/-! ## Functions that can be made -/

namespace FunctionDescriptor

/-- The placeholders of the function fit into one list. -/
def fits (d : FunctionDescriptor) : Bool := decide (d.paramCount ≤ Function.maxPlaceholders)

def entity (settings : Settings) (d : FunctionDescriptor) : Entity :=
  .function ⟨d.schema, d.name, d.paramCount, settings⟩

end FunctionDescriptor

theorem Function.ofDescriptor?_eq (settings : Settings) (d : FunctionDescriptor) :
    Function.ofDescriptor? settings d =
      if d.fits then some ⟨d.schema, d.name, d.paramCount, settings⟩ else none := by
  simp [Function.ofDescriptor?, FunctionDescriptor.fits]

namespace Database

theorem bindFunctions_cons (db : Database) (d : FunctionDescriptor)
    (rest : List FunctionDescriptor) :
    db.bindFunctions (d :: rest) =
      if d.fits then (db.bind (d.entity db.settings)).bindFunctions rest else (none, db) := by
  rw [bindFunctions, Function.ofDescriptor?_eq]
  cases d.fits <;> rfl

/-- What is bound are the functions before the first that cannot be made. -/
theorem bindFunctions_eq (db : Database) (ds : List FunctionDescriptor) :
    db.bindFunctions ds =
      (if ds.all (·.fits) then some () else none,
        db.bindAll ((ds.takeWhile (·.fits)).map (·.entity db.settings))) := by
  induction ds generalizing db with
  | nil => rfl
  | cons d ds ih =>
    rw [bindFunctions_cons, List.all_cons, List.takeWhile_cons]
    cases d.fits with
    | false => rfl
    | true => exact ih (db.bind (d.entity db.settings))

end Database

/-! ## Binding is all -/

def Entity.settings : Entity → Settings
  | .table t => t.settings
  | .function f => f.settings

/-- All of the entities have the settings of the database. -/
def Database.Owns (db : Database) (entities : List Entity) : Prop :=
  ∀ e ∈ entities, e.settings = db.settings

namespace Database

variable {db : Database}

theorem owns_nil : db.Owns [] := nofun

theorem Owns.append {first second : List Entity} (hfirst : db.Owns first)
    (hsecond : db.Owns second) : db.Owns (first ++ second) :=
  fun e he => (List.mem_append.mp he).elim (hfirst e) (hsecond e)

theorem owns_tables (tables : List TableDescriptor) :
    db.Owns (tables.map fun d => .table (.ofDescriptor db.settings d)) := by
  rintro e he
  obtain ⟨d, -, rfl⟩ := List.mem_map.mp he
  rfl

theorem owns_functions (functions : List FunctionDescriptor) :
    db.Owns (functions.map (·.entity db.settings)) := by
  rintro e he
  obtain ⟨d, -, rfl⟩ := List.mem_map.mp he
  rfl

end Database

/-- Whatever the partners answer, the action binds some entities with the
settings of the database, and leaves the database else as it was. -/
def Action.Binds (a : Action α) : Prop :=
  ∀ (σ : Type) (host : Host σ) (db : Database) (state : σ),
    ∃ entities, db.Owns entities ∧ ((a.session db).run host state).value.2 = db.bindAll entities

namespace Action

theorem binds_call (c : Call α) : Binds (Action.call c) := by
  intro σ host db state
  rw [run_call]
  exact ⟨[], Database.owns_nil, rfl⟩

theorem Binds.bind {a : Action α} {f : α → Action β} (ha : Binds a) (hf : ∀ x, Binds (f x)) :
    Binds (a >>= f) := by
  intro σ host db state
  obtain ⟨first, hown, hfirst⟩ := ha σ host db state
  rw [run_bind]
  dsimp only
  split
  · rename_i x _
    obtain ⟨second, hown', hsecond⟩ :=
      hf x σ host (db.bindAll first) ((a.session db).run host state).state
    refine ⟨first ++ second, hown.append hown', ?_⟩
    rw [hfirst, ← Database.bindAll_bindAll]
    exact hsecond
  · exact ⟨first, hown, hfirst⟩

theorem Binds.map {a : Action α} (ha : Binds a) (f : α → β) : Binds (do return f (← a)) := by
  intro σ host db state
  rw [run_map]
  exact ha σ host db state

/-- An action that ends at once. -/
theorem binds_done {a : Action α}
    (h : ∀ db, ∃ r entities, db.Owns entities ∧ a.session db = .done (r, db.bindAll entities)) :
    Binds a := by
  intro σ host db state
  obtain ⟨r, entities, hown, hdone⟩ := h db
  rw [hdone]
  exact ⟨entities, hown, rfl⟩

theorem binds_get : Binds (get : Action Database) := by
  refine binds_done fun db => ?_
  exact ⟨_, [], Database.owns_nil, rfl⟩

end Action

namespace Database

open DocStore.Action

theorem binds_bindTable (d : TableDescriptor) : Binds (bindTable d) := by
  refine binds_done fun db => ?_
  exact ⟨_, [.table (.ofDescriptor db.settings d)], owns_tables [d], rfl⟩

theorem session_bindFunction (db : Database) (d : FunctionDescriptor) :
    (bindFunction d).session db =
      .done (if d.fits then
          (.ok (some ⟨d.schema, d.name, d.paramCount, db.settings⟩),
            db.bind (d.entity db.settings))
        else (.ok none, db)) := by
  show Session.done (Except.ok (Prod.fst _), Prod.snd _) = _
  rw [Function.ofDescriptor?_eq]
  cases d.fits <;> rfl

theorem binds_bindFunction (d : FunctionDescriptor) : Binds (bindFunction d) := by
  refine binds_done fun db => ?_
  rw [session_bindFunction]
  cases d.fits with
  | false => exact ⟨_, [], owns_nil, rfl⟩
  | true => exact ⟨_, [d.entity db.settings], owns_functions [d], rfl⟩

theorem binds_loading {ask : Config → Call α} {bind : α → Database → β × Database}
    (h : ∀ x db, ∃ entities, db.Owns entities ∧ (bind x db).2 = db.bindAll entities) :
    Binds (loading ask bind) := by
  intro σ host db state
  rw [run_loading]
  dsimp only
  split
  · exact h _ db
  · exact ⟨[], owns_nil, rfl⟩

theorem binds_loadTables : Binds loadTables :=
  binds_loading fun tables _ => ⟨_, owns_tables tables, rfl⟩

theorem binds_loadFunctions : Binds loadFunctions :=
  binds_loading fun functions db =>
    ⟨_, owns_functions _, congrArg Prod.snd (db.bindFunctions_eq functions)⟩

theorem binds_load : Binds load := by
  refine binds_loading fun catalog db => ?_
  refine ⟨_, (owns_tables catalog.tables).append
    (owns_functions (catalog.functions.takeWhile (·.fits))), ?_⟩
  rw [bindCatalog, bindFunctions_eq, ← bindAll_bindAll]
  rfl

theorem binds_createCollection (name : String) : Binds (createCollection name) :=
  binds_get.bind fun _ => (binds_call _).bind fun d => (binds_call _).bind fun _ =>
    binds_bindTable d

theorem binds_saveDocument (operation : SaveOperation) (name : String) (document : Json) :
    Binds (saveDocument operation name document) := by
  have htable : Binds (tableFor name) := by
    refine binds_get.bind fun db => ?_
    cases db.bound.table? name with
    | some table =>
      refine binds_done fun db => ?_
      exact ⟨_, [], owns_nil, rfl⟩
    | none => exact binds_createCollection name
  cases hobj : isObject document with
  | false =>
    refine binds_done fun db => ?_
    rw [session_saveDocument_of_not_object hobj]
    exact ⟨_, [], owns_nil, rfl⟩
  | true =>
    unfold saveDocument
    rw [hobj]
    show Binds (do Action.call ((← tableFor name).save operation document))
    exact htable.bind fun table => binds_call _

end Database

theorem Operation.binds (o : Operation) : Action.Binds o.action := by
  cases o with
  | ofEntity o => exact Action.binds_call o.call
  | invoke path args => exact (Action.binds_get.bind fun db => Action.binds_call _).map _
  | saveDocument operation name document =>
    exact (Database.binds_saveDocument operation name document).map _
  | insertDocument name document =>
    exact (Database.binds_saveDocument .insert name document).map _
  | updateDocument name document =>
    exact (Database.binds_saveDocument .update name document).map _
  | createCollection name => exact (Database.binds_createCollection name).map _

/-! ## Every database there can be -/

/-- What can be done with a database and may bind entities. -/
inductive Change where
  | load
  | loadTables
  | loadFunctions
  | bindTable (d : TableDescriptor)
  | bindFunction (d : FunctionDescriptor)
  | operate (o : Operation)

namespace Change

/-- The change, but for what it returns. -/
def action : Change → Action (Option Unit)
  | .load => Database.load
  | .loadTables => do return (fun _ => some ()) (← Database.loadTables)
  | .loadFunctions => do return Option.map (fun _ => ()) (← Database.loadFunctions)
  | .bindTable d => do return (fun _ => some ()) (← Database.bindTable d)
  | .bindFunction d => do return Option.map (fun _ => ()) (← Database.bindFunction d)
  | .operate o => do return (fun _ => some ()) (← o.action)

/-- The database that a change leaves, whether it succeeds or fails; none if it breaks off. -/
def after (c : Change) (host : Host σ) (db : Database) (state : σ) : Option Database :=
  match ((c.action.session db).run host state).value with
  | (.ok none, _) => none
  | (_, after) => some after

theorem binds (c : Change) : Action.Binds c.action := by
  cases c with
  | load => exact Database.binds_load
  | loadTables => exact Database.binds_loadTables.map _
  | loadFunctions => exact Database.binds_loadFunctions.map _
  | bindTable d => exact (Database.binds_bindTable d).map _
  | bindFunction d => exact (Database.binds_bindFunction d).map _
  | operate o => exact o.binds.map _

theorem eq_of_after {c : Change} {host : Host σ} {db after : Database} {state : σ}
    (h : c.after host db state = some after) :
    after = ((c.action.session db).run host state).value.2 := by
  unfold Change.after at h
  split at h
  · cases h
  · rename_i hvalue
    rw [hvalue]
    exact (Option.some.inj h).symm

end Change

/-- A database of a configuration, after any changes with any partners. -/
inductive Reachable : Database → Prop where
  | new (config : Config) : Reachable (.ofConfig config)
  | change {db after : Database} (h : Reachable db) {σ : Type} (host : Host σ) (state : σ)
    (c : Change) (hafter : c.after host db state = some after) : Reachable after

namespace Reachable

variable {db : Database}

/-- A database is its configuration and what has been bound, in order. -/
theorem exists_bound (h : Reachable db) :
    ∃ bound, db.Owns bound ∧
      db.bound = (Namespace.empty db.config.defaultSchema).bindAll bound := by
  induction h with
  | new config => exact ⟨[], Database.owns_nil, rfl⟩
  | change h host state c hafter ih =>
    obtain ⟨bound, hown, hbound⟩ := ih
    obtain ⟨entities, hown', hentities⟩ := c.binds _ host _ state
    rw [Change.eq_of_after hafter, hentities]
    refine ⟨bound ++ entities, hown.append hown', ?_⟩
    rw [Database.bindAll, hbound]
    simp [Namespace.bindAll]

theorem coherent (h : Reachable db) : db.bound.Coherent := by
  obtain ⟨bound, -, hbound⟩ := h.exists_bound
  rw [hbound]
  exact Namespace.coherent_bindAll (Namespace.coherent_empty _) bound

theorem defaultSchema_eq (h : Reachable db) : db.bound.defaultSchema = db.config.defaultSchema := by
  obtain ⟨bound, -, hbound⟩ := h.exists_bound
  rw [hbound, Namespace.defaultSchema_bindAll]
  rfl

end Reachable

end DocStore
