import DocStore.Proofs.Memory.Create
import DocStore.Proofs.Memory.Find

/-!
# Operations that save nothing

What is no save leaves every stored body: it is refused, or only reads,
or creates a collection.

Main statement: `sameBodies_of_no_save`.
-/

namespace DocStore

open Call

variable {γ : Type}

/-! ## On a table -/

section Calls

variable {next : γ → Cell × γ}

theorem reads_save_of_not_object {document : Json} (h : document.members? = none) (t : Table)
    (operation : SaveOperation) : Reads next (t.save operation document) := by
  cases document with
  | obj members => cases h
  | _ => exact reads_done _

theorem reads_updateById_of_not_object {document : Json} (h : document.members? = none)
    (t : Table) (id : Cell) : Reads next (t.updateById id document) := by
  cases document with
  | obj members => cases h
  | _ => exact reads_done _

/-- What does not save on a table only reads. -/
theorem reads_call {o : EntityOperation} (h : o.save? = none) : Reads next o.call := by
  cases o with
  | find t condition options => exact (reads_find t condition options).map _
  | findJson t condition options =>
    exact ((reads_done _).bind fun condition => reads_find t condition options).map _
  | findById t id => exact ((reads_find t (.byId id) {}).map _).map _
  | search t keys term => exact (reads_search t keys term).map _
  | save t operation document =>
    exact (reads_save_of_not_object (Option.map_eq_none_iff.mp h) t operation).map _
  | insert t document =>
    exact (reads_save_of_not_object (Option.map_eq_none_iff.mp h) t .insert).map _
  | update t document =>
    exact (reads_save_of_not_object (Option.map_eq_none_iff.mp h) t .update).map _
  | updateById t id document =>
    exact (reads_updateById_of_not_object (Option.map_eq_none_iff.mp h) t id).map _
  | invoke f args => exact (reads_invoke f args).map _

end Calls

/-! ## On a database -/

section Actions

variable (next : γ → Cell × γ) {m : Memory} (g : γ)

theorem state_run_map {α : Type} (a : Action α) (f : α → Answer) (db : Database) :
    ((Action.session (do return f (← a)) db).run (Memory.host next) (m, g)).state =
      ((a.session db).run (Memory.host next) (m, g)).state := by
  rw [Action.run_map]

theorem sameBodies_saveDocument {db : Database} {operation : SaveOperation} {name : String}
    {document : Json} (h : db.save? operation name document = none) :
    m.SameBodies (((Database.saveDocument operation name document).session db).run
      (Memory.host next) (m, g)).state.1 := by
  obtain ⟨e, he⟩ := Database.session_saveDocument_of_none h
  rw [he]
  exact m.sameBodies_self

variable (hfail : m.failure = none)
include hfail

theorem sameBodies_createCollection (name : String) (db : Database) :
    m.SameBodies (((Database.createCollection name).session db).run (Memory.host next)
      (m, g)).state.1 := by
  cases hd : Database.collection db.config.defaultSchema name with
  | error r =>
    rw [Database.session_createCollection_of_error hd]
    exact m.sameBodies_self
  | ok d =>
    have hcreation := play_creation next g hfail db.config.defaultSchema d
    have hvalue : (Call.run (Memory.host next)
        (Database.sendAll (Database.creation db.config.defaultSchema d)) (m, g)).value = .ok () :=
      congrArg Prod.fst hcreation
    have hstate : (Call.run (Memory.host next)
        (Database.sendAll (Database.creation db.config.defaultSchema d)) (m, g)).state =
          (m.create (Memory.createdName db.config.defaultSchema d), g) :=
      congrArg Prod.snd hcreation
    rw [Database.run_createCollection _ hd]
    simp only [hvalue, hstate]
    exact m.sameBodies_create _

/-- An operation that saves nothing leaves every body. -/
theorem sameBodies_of_no_save {o : Operation} {db : Database} (h : o.save? db = none) :
    m.SameBodies (o.run (Memory.host next) db (m, g)).state.1 := by
  cases o with
  | ofEntity o =>
    have hreads : (play (Memory.host next) o.call (m, g)).2.1 = m := reads_call h m g
    show m.SameBodies ((Action.session (Action.call o.call) db).run _ (m, g)).state.1
    rw [Action.run_call]
    exact hreads.symm ▸ m.sameBodies_self
  | invoke path args =>
    have hreads : Reads next (db.invoke path args) :=
      (reads_done _).bind fun f => reads_invoke f args
    rw [Operation.run_invoke]
    exact (hreads m g).symm ▸ m.sameBodies_self
  | saveDocument operation name document =>
    exact (state_run_map next g _ _ db).symm ▸ sameBodies_saveDocument next g h
  | insertDocument name document =>
    exact (state_run_map next g _ _ db).symm ▸ sameBodies_saveDocument next g h
  | updateDocument name document =>
    exact (state_run_map next g _ _ db).symm ▸ sameBodies_saveDocument next g h
  | createCollection name =>
    exact (state_run_map next g _ _ db).symm ▸ sameBodies_createCollection next g hfail name db

end Actions

end DocStore
