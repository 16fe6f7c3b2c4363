import DocStore.Proofs.Operation
import DocStore.Proofs.Patch.Assignment

/-!
# Saves

Of all operations, those that save a document come down to one call: a
save of some fields to a table, for a collection perhaps preceded by the
statements that create it. What a save does first is determined by its
fields: they have an id, an insertion is given a new one, or the save is
refused.

Main statement: `Operation.run_save`.
-/

namespace DocStore

open Call

variable {σ : Type}

/-! ## The id -/

/-- The id that a save uses: the one in the fields, or for an insertion
without one the new id. -/
def Table.usedId? (t : Table) (operation : SaveOperation) (fields : Json.Members) (fresh : Cell) :
    Option Cell :=
  match Table.suppliedId t.primaryKey fields, operation with
  | .ok (some id), _ => some id
  | .ok none, .insert => some fresh
  | .ok none, .update => none
  | .error _, _ => none

theorem usedId?_of_supplied {t : Table} {operation : SaveOperation} {fields : Json.Members}
    {fresh id : Cell} (h : Table.suppliedId t.primaryKey fields = .ok (some id)) :
    t.usedId? operation fields fresh = some id := by
  simp only [Table.usedId?, h]

theorem usedId?_insert_fresh {t : Table} {fields : Json.Members} {fresh : Cell}
    (h : Table.suppliedId t.primaryKey fields = .ok none) :
    t.usedId? .insert fields fresh = some fresh := by
  simp only [Table.usedId?, h]

theorem supplied_of_update {t : Table} {fields : Json.Members} {fresh id : Cell}
    (h : t.usedId? .update fields fresh = some id) :
    Table.suppliedId t.primaryKey fields = .ok (some id) := by
  unfold Table.usedId? at h
  cases hsupplied : Table.suppliedId t.primaryKey fields with
  | error r =>
    rw [hsupplied] at h
    cases h
  | ok supplied =>
    rw [hsupplied] at h
    cases supplied with
    | none => cases h
    | some supplied =>
      cases h
      rfl

/-- An update replaces the body or carries a patch out. -/
theorem updating_cases {t : Table} {id : Cell} {update : Json.Members} {statement : Statement}
    (h : t.updating id update = .ok statement) :
    (Patch.ofUpdate update = .ok none ∧
      statement = .ofSql (Patch.updateSql t.sqlName t.primaryKey [.placeholder 2])
        [id, .json (.obj update)] true) ∨
    ∃ p segments, Patch.ofUpdate update = .ok (some p) ∧ segments ≠ [] ∧
      statement = .ofSql (Patch.updateSql t.sqlName t.primaryKey (p.assignment segments).sql)
        (p.params id segments) true := by
  obtain ⟨patch, hpatch, h⟩ := bind_eq_ok h
  cases patch with
  | none =>
    cases h
    exact .inl ⟨hpatch, rfl⟩
  | some p =>
    obtain ⟨⟨sql, params⟩, hstatement, h⟩ := bind_eq_ok h
    obtain ⟨segments, hsegments, hstatement⟩ := bind_eq_ok hstatement
    cases h
    cases hstatement
    refine .inr ⟨p, segments, hpatch, ?_, rfl⟩
    rw [← (DocPath.segments_eq_ok_iff.mp hsegments).2]
    exact DocPath.parts_ne_nil p.path

/-! ## What is sent -/

/-- What an insertion does with a new id. -/
def Table.storeNew (t : Table) (body : Json.Members) (id : Cell) : Call Document :=
  if id.isBlank then throw (.invalid .emptyGeneratedId) else store (t.insertion id body) id

/-- The insertion of a document without an id asks for one first. -/
theorem save_insert_eq {t : Table} {fields : Json.Members}
    (h : Table.suppliedId t.primaryKey fields = .ok none) :
    t.save .insert (.obj fields) = newId >>= t.storeNew (Entries.erase t.primaryKey fields) := by
  show (check (Table.suppliedId t.primaryKey fields) >>= _) = _
  rw [h]
  show (Table.insertId none >>= _) = _
  rw [Table.insertId, bind_assoc]
  congr 1
  funext id
  unfold Table.storeNew
  cases id.isBlank <;> rfl

section Parts

variable (host : Host σ) {t : Table} {fields : Json.Members} (state : σ)

theorem save_of_no_id {r : Refusal} (h : Table.suppliedId t.primaryKey fields = .error r)
    (operation : SaveOperation) :
    play host (t.save operation (.obj fields)) state = (.error (.invalid r), state) := by
  show play host (check (Table.suppliedId t.primaryKey fields) >>= _) state = _
  rw [h]
  rfl

theorem save_insert {id : Cell} (h : Table.suppliedId t.primaryKey fields = .ok (some id)) :
    play host (t.save .insert (.obj fields)) state =
      play host (Table.store (t.insertion id (Entries.erase t.primaryKey fields)) id) state := by
  show play host (check (Table.suppliedId t.primaryKey fields) >>= _) state = _
  rw [h]
  rfl

theorem save_insert_fresh (h : Table.suppliedId t.primaryKey fields = .ok none) :
    play host (t.save .insert (.obj fields)) state =
      if (host.newId state).1.isBlank then
        (.error (.invalid .emptyGeneratedId), (host.newId state).2)
      else
        play host (Table.store (t.insertion (host.newId state).1
          (Entries.erase t.primaryKey fields)) (host.newId state).1) (host.newId state).2 := by
  rw [save_insert_eq h, play_bind]
  show play host (t.storeNew _ _) _ = _
  unfold Table.storeNew
  split <;> rfl

theorem save_update_without_id (h : Table.suppliedId t.primaryKey fields = .ok none) :
    play host (t.save .update (.obj fields)) state =
      (.error (.invalid (.keyMissing t.primaryKey)), state) := by
  show play host (check (Table.suppliedId t.primaryKey fields) >>= _) state = _
  rw [h]
  rfl

theorem save_update {id : Cell} (h : Table.suppliedId t.primaryKey fields = .ok (some id)) :
    play host (t.save .update (.obj fields)) state =
      match t.updating id (Entries.erase t.primaryKey fields) with
      | .ok statement => play host (Table.store statement id) state
      | .error r => (.error (.invalid r), state) := by
  show play host (check (Table.suppliedId t.primaryKey fields) >>= _) state = _
  rw [h]
  show play host (check (t.updating id (Entries.erase t.primaryKey fields)) >>= _) state = _
  rw [play_bind, play_check]
  cases t.updating id (Entries.erase t.primaryKey fields) <;> rfl

/-- An update by id is the update of the document with that id. -/
theorem updateById_obj (t : Table) (id : Cell) (fields : Json.Members) :
    t.updateById id (.obj fields) =
      t.save .update (.obj (Entries.insert t.primaryKey id.toJson fields)) := rfl

end Parts

/-! ## Operations that save -/

/-- A save of fields to a table, which may have to be created first. -/
structure Save where
  table : Table
  operation : SaveOperation
  fields : Json.Members
  creates : Bool

namespace Save

/-- The id that is used; `fresh` is the next new one. -/
def id? (s : Save) (fresh : Cell) : Option Cell := s.table.usedId? s.operation s.fields fresh

/-- The fields without the id. -/
def body (s : Save) : Json.Members := Entries.erase s.table.primaryKey s.fields

/-- The statements that are sent first. -/
def creation (s : Save) : List Sql :=
  if s.creates then
    Database.creation s.table.settings.defaultSchema ⟨s.table.schema, s.table.name, none⟩
  else []

def call (s : Save) : Call Document := do
  Database.sendAll s.creation
  s.table.save s.operation (.obj s.fields)

end Save

/-- The table of a collection, and whether it has to be created. -/
def Database.target? (db : Database) (name : String) : Option (Table × Bool) :=
  match db.bound.table? name with
  | some t => some (t, false)
  | none =>
    match collection db.config.defaultSchema name with
    | .ok d => some (.ofDescriptor db.settings d, true)
    | .error _ => none

/-- The save of a document to a collection. -/
def Database.save? (db : Database) (operation : SaveOperation) (name : String) (document : Json) :
    Option Save := do
  let fields ← document.members?
  let (table, creates) ← db.target? name
  return ⟨table, operation, fields, creates⟩

def EntityOperation.save? : EntityOperation → Option Save
  | .save t operation document =>
    document.members?.map fun fields => ⟨t, operation, fields, false⟩
  | .insert t document => document.members?.map fun fields => ⟨t, .insert, fields, false⟩
  | .update t document => document.members?.map fun fields => ⟨t, .update, fields, false⟩
  | .updateById t id document =>
    document.members?.map fun fields =>
      ⟨t, .update, Entries.insert t.primaryKey id.toJson fields, false⟩
  | _ => none

/-- What the operation saves, if it gets as far as saving. -/
def Operation.save? (db : Database) : Operation → Option Save
  | .ofEntity o => o.save?
  | .saveDocument operation name document => db.save? operation name document
  | .insertDocument name document => db.save? .insert name document
  | .updateDocument name document => db.save? .update name document
  | _ => none

theorem eq_obj_of_members? {document : Json} {fields : Json.Members}
    (h : document.members? = some fields) : document = .obj fields := by
  cases document with
  | obj members =>
    cases h
    rfl
  | _ => cases h

theorem members?_of_fields {document : Json} {fields : Json.Members}
    (h : Table.fields document = .ok fields) : document.members? = some fields := by
  cases document with
  | obj members =>
    cases h
    rfl
  | _ => cases h

theorem play_map {α β : Type} (host : Host σ) (c : Call α) (f : α → β) (state : σ) :
    play host (do return f (← c)) state = ((play host c state).1.map f, (play host c state).2) := by
  rw [play_bind]
  cases play host c state with
  | mk r state' => cases r <;> rfl

/-- On a table the save is the whole call. -/
theorem EntityOperation.call_save {o : EntityOperation} {s : Save} (h : o.save? = some s) :
    o.call = do return .document (← s.call) := by
  cases o with
  | save t operation document =>
    obtain ⟨fields, hfields, rfl⟩ := Option.map_eq_some_iff.mp h
    rw [eq_obj_of_members? hfields]
    rfl
  | insert t document =>
    obtain ⟨fields, hfields, rfl⟩ := Option.map_eq_some_iff.mp h
    rw [eq_obj_of_members? hfields]
    rfl
  | update t document =>
    obtain ⟨fields, hfields, rfl⟩ := Option.map_eq_some_iff.mp h
    rw [eq_obj_of_members? hfields]
    rfl
  | updateById t id document =>
    obtain ⟨fields, hfields, rfl⟩ := Option.map_eq_some_iff.mp h
    rw [EntityOperation.call, eq_obj_of_members? hfields, updateById_obj]
    rfl
  | _ => cases h

/-! ## On a database -/

theorem Database.save?_cases {db : Database} {operation : SaveOperation} {name : String}
    {document : Json} {s : Save} (h : db.save? operation name document = some s) :
    ∃ fields, document = .obj fields ∧
      ((∃ t, db.bound.table? name = some t ∧ s = ⟨t, operation, fields, false⟩) ∨
        db.bound.table? name = none ∧ ∃ d, collection db.config.defaultSchema name = .ok d ∧
          s = ⟨.ofDescriptor db.settings d, operation, fields, true⟩) := by
  obtain ⟨fields, hfields, h⟩ := Option.bind_eq_some_iff.mp h
  obtain ⟨⟨table, creates⟩, htarget, h⟩ := Option.bind_eq_some_iff.mp h
  cases h
  refine ⟨fields, eq_obj_of_members? hfields, ?_⟩
  unfold target? at htarget
  split at htarget
  · rename_i t ht
    cases htarget
    exact .inl ⟨_, ht, rfl⟩
  · rename_i hnone
    split at htarget
    · rename_i d hd
      cases htarget
      exact .inr ⟨hnone, d, hd, rfl⟩
    · cases htarget

/-- Without anything to save, a save to a collection is refused. -/
theorem Database.session_saveDocument_of_none {db : Database} {operation : SaveOperation}
    {name : String} {document : Json} (h : db.save? operation name document = none) :
    ∃ e, (saveDocument operation name document).session db = .done (.error e, db) := by
  cases hfields : document.members? with
  | none =>
    have hobject : isObject document = false := by
      cases document with
      | obj members => cases hfields
      | _ => rfl
    exact ⟨_, session_saveDocument_of_not_object hobject operation name db⟩
  | some fields =>
    have hobject : isObject document = true := by
      rw [eq_obj_of_members? hfields]
      rfl
    cases htable : db.bound.table? name with
    | some t => simp [save?, target?, hfields, htable] at h
    | none =>
      cases hd : collection db.config.defaultSchema name with
      | ok d => simp [save?, target?, hfields, htable, hd] at h
      | error r =>
        refine ⟨.invalid r, ?_⟩
        rw [session_saveDocument_of_not_bound hobject htable, Action.session_bind,
          session_createCollection_of_error hd]
        rfl

/-- But for what it binds, a save to a collection is its save. -/
theorem Database.answered_saveDocument {db : Database} {operation : SaveOperation}
    {name : String} {document : Json} {s : Save}
    (h : db.save? operation name document = some s) :
    (saveDocument operation name document).answered db = ExceptT.run s.call := by
  obtain ⟨fields, rfl, ⟨t, ht, rfl⟩ | ⟨hnone, d, hd, rfl⟩⟩ := save?_cases h
  · rw [Action.answered, session_saveDocument_of_bound rfl ht]
    exact Action.answered_call _ db
  · rw [Action.answered, session_saveDocument_of_not_bound rfl hnone, Action.session_bind,
      session_createCollection_of_ok hd, Session.bind_assoc, Session.bind_assoc]
    show _ = ExceptT.run (sendAll (creation db.config.defaultSchema d)) >>= _
    congr 1
    funext r
    cases r with
    | error e => rfl
    | ok _ => exact Action.answered_call _ _

/-- But for what it binds, an operation that saves is its save. -/
theorem Operation.answered_save {o : Operation} {db : Database} {s : Save}
    (h : o.save? db = some s) :
    o.action.answered db = ExceptT.run (do return Answer.document (← s.call)) := by
  cases o with
  | ofEntity o =>
    rw [← EntityOperation.call_save h]
    exact Action.answered_call _ db
  | saveDocument operation name document =>
    rw [run_return, ← Database.answered_saveDocument h]
    exact Action.answered_return _ _ db
  | insertDocument name document =>
    rw [run_return, ← Database.answered_saveDocument h]
    exact Action.answered_return _ _ db
  | updateDocument name document =>
    rw [run_return, ← Database.answered_saveDocument h]
    exact Action.answered_return _ _ db
  | invoke path args => cases h
  | createCollection name => cases h

theorem Operation.run_eq_of_save (host : Host σ) {o : Operation} {db : Database} {s : Save}
    (h : o.save? db = some s) (state : σ) :
    o.run host db state =
      let out := Call.run host s.call state
      ⟨(out.value.map .document, (o.run host db state).value.2), out.requests, out.state⟩ := by
  let out := o.run host db state
  have hanswered : Call.run host (do return Answer.document (← s.call)) state =
      ⟨out.value.1, out.requests, out.state⟩ := by
    rw [Call.run, ← o.answered_save h]
    exact Action.run_answered host o.action db state
  rw [Call.run_map] at hanswered
  obtain ⟨hvalue, hrequests, hstate⟩ := Outcome.mk.inj hanswered
  dsimp only
  rw [hvalue, hrequests, hstate]

/-- What an operation that saves answers, and what it leaves, is what its save
does. -/
theorem Operation.run_save (host : Host σ) {o : Operation} {db : Database} {s : Save}
    (h : o.save? db = some s) (state : σ) :
    (o.run host db state).value.1 = (play host s.call state).1.map .document ∧
      (o.run host db state).state = (play host s.call state).2 := by
  rw [o.run_eq_of_save host h]
  exact ⟨rfl, rfl⟩

end DocStore
