import DocStore.Proofs.Memory.Statement
import DocStore.Proofs.Patch.Object
import DocStore.Proofs.Save

/-!
# Saving to the store

A save to a table of documents either fails and leaves the store as it
was, or puts an object under the text of the id that it uses and returns
that object with the id. Which id it uses is known beforehand: the one in
the fields, or for an insertion without one the next new id.

Main statements: `save_cases`, `save_missing`.
-/

namespace DocStore

variable {γ : Type}

/-- The store as the partner of calls; new ids come from `next`. -/
def Memory.host (next : γ → Cell × γ) : Host (Memory × γ) where
  connect _ s := (⟨some 0, .ok ()⟩, s)
  execute statement s := ((s.1.execute statement).1, (s.1.execute statement).2, s.2)
  newId s := ((next s.2).1, s.1, (next s.2).2)

/-- Every stored body is an object. -/
def Memory.HoldsObjects (m : Memory) : Prop :=
  ∀ table id body, m.body? table id = some body → body.IsObject

theorem Memory.HoldsObjects.rows {m : Memory} (h : m.HoldsObjects) {table : String} {rows : Rows}
    (hrows : m.tables.get? table = some rows) {id : String} {body : Json}
    (hbody : rows.get? id = some body) : body.IsObject :=
  h table id body ((m.body?_of_rows hrows id).trans hbody)

/-- The members of a body with the text of the id. -/
def Document.withId (text : String) (members : Json.Members) : Document :=
  ⟨Entries.insert idColumn (.str text) members⟩

open Call

/-! ## The reply to a save -/

section Store

variable (next : γ → Cell × γ) {m m' : Memory} {g : γ} {statement : Statement} {id : Cell}

theorem execute_host (statement : Statement) (m : Memory) (g : γ) :
    (Memory.host next).execute statement (m, g) =
      ((m.execute statement).1, (m.execute statement).2, g) := by
  rw [Memory.host]

theorem play_store_error {e : DbError} (h : m.execute statement = (.error e, m')) :
    play (Memory.host next) (Table.store statement id) (m, g) = (.error e, m', g) := by
  rw [Table.store, play_bind, play_send, execute_host, h]

theorem play_store_empty (h : m.execute statement = (.ok (Memory.documentRows []), m')) :
    play (Memory.host next) (Table.store statement id) (m, g) =
      (.error (.documentNotFound id.display), m', g) := by
  rw [Table.store, play_bind, play_send, execute_host, h]
  rfl

theorem play_store_row {text : String} {members : Json.Members}
    (h : m.execute statement = (.ok (Memory.documentRows [(text, .obj members)]), m')) :
    play (Memory.host next) (Table.store statement id) (m, g) =
      (.ok (.withId text members), m', g) := by
  rw [Table.store, play_bind, play_send, execute_host, h]
  rfl

end Store

/-! ## Updates -/

theorem params_eq_cons (p : Patch) (id : Cell) (segments : List String) :
    ∃ rest, p.params id segments = id :: .text (DocPath.arrayText segments) :: rest := by
  cases p <;> exact ⟨_, rfl⟩

/-- A patch makes an object of an object, or fails. -/
theorem object_of_updatedBody {t : Table} (ht : t.IsDocuments) {p : Patch} {id : Cell}
    {segments : List String} (hne : segments ≠ []) {current new : Json} (hcurrent : current.IsObject)
    (h : Memory.updatedBody
      (Patch.updateSql t.sqlName t.primaryKey (p.assignment segments).sql).render current
      (p.params id segments) = .ok new) : new.IsObject := by
  unfold Memory.updatedBody at h
  split at h
  · -- the text of a path can be mistaken for a new body, but it is not JSON
    obtain ⟨rest, hparams⟩ := params_eq_cons p id segments
    rw [hparams, Memory.jsonParam_one_text, Json.read?_arrayText hne] at h
    cases h
  · rw [Memory.assigned?_update ht] at h
    obtain ⟨value, hvalue, h⟩ := bind_eq_ok h
    cases value with
    | none => cases h
    | some j =>
      cases h
      rw [Sql.render, String.toList_ofList] at hvalue
      exact Patch.object_of_evaluate hne hcurrent hvalue

/-- A patch whose assignment fails makes no new body. -/
theorem updatedBody_of_error {t : Table} (ht : t.IsDocuments) {p : Patch} {id : Cell}
    {segments : List String} (hne : segments ≠ []) {current : Json} {e : DbError}
    (h : Jsonb.evaluate (p.assignment segments).sql.chars current (p.params id segments) =
      .error e) :
    ∃ e', Memory.updatedBody
      (Patch.updateSql t.sqlName t.primaryKey (p.assignment segments).sql).render current
      (p.params id segments) = .error e' := by
  unfold Memory.updatedBody
  split
  · obtain ⟨rest, hparams⟩ := params_eq_cons p id segments
    rw [hparams, Memory.jsonParam_one_text, Json.read?_arrayText hne]
    exact ⟨_, rfl⟩
  · rw [Memory.assigned?_update ht]
    dsimp only
    rw [Sql.render, String.toList_ofList, h]
    exact ⟨e, rfl⟩

/-- A patch whose assignment fails on the stored body leaves the store. -/
theorem execute_patch_of_error {t : Table} (ht : t.IsDocuments) {m : Memory} {id : Cell}
    {text : String} (hid : id.idText? = some text) {body : Json}
    (hbody : m.body? t.storedName text = some body) {p : Patch} {segments : List String}
    (hne : segments ≠ []) {e : DbError}
    (h : Jsonb.evaluate (p.assignment segments).sql.chars body (p.params id segments) = .error e) :
    ∃ e', m.execute (.ofSql
      (Patch.updateSql t.sqlName t.primaryKey (p.assignment segments).sql)
      (p.params id segments) true) = (.error e', m) := by
  cases hfail : m.failure with
  | some message =>
    refine ⟨_, Memory.execute_of_failure hfail ?_⟩
    show ¬ Memory.IsCatalog (.ofList _)
    rw [Memory.updateSql_eq ht]
    exact Memory.not_isCatalog (c := 'u') rfl (by decide) (by simp)
  | none =>
    obtain ⟨rows, hrows, hrow⟩ := Option.bind_eq_some_iff.mp hbody
    obtain ⟨e', he⟩ := updatedBody_of_error ht hne h
    obtain ⟨rest, hparams⟩ := params_eq_cons p id segments
    refine ⟨e', ?_⟩
    rw [hparams] at he ⊢
    rw [Memory.execute_updateSql ht hfail hrows, hid]
    simp only [hrow, he]

section Execution

variable {t : Table} (ht : t.IsDocuments) {m : Memory} (hfail : m.failure = none) {rows : Rows}
  (hrows : m.tables.get? t.storedName = some rows)
include ht hfail hrows

theorem execute_updating_unusable {id : Cell} {update : Json.Members} {statement : Statement}
    (h : t.updating id update = .ok statement) (hid : id.idText? = none) :
    m.execute statement = (.error (.execution (.wrongParameter 1)), m) := by
  rcases updating_cases h with ⟨-, rfl⟩ | ⟨p, segments, -, -, rfl⟩
  · rw [Memory.execute_updateSql ht hfail hrows, hid]
    rfl
  · obtain ⟨rest, hparams⟩ := params_eq_cons p id segments
    rw [hparams, Memory.execute_updateSql ht hfail hrows, hid]
    rfl

theorem execute_updating_missing {id : Cell} {update : Json.Members} {statement : Statement}
    (h : t.updating id update = .ok statement) {text : String} (hid : id.idText? = some text)
    (hmissing : rows.get? text = none) :
    m.execute statement = (.ok (Memory.documentRows []), m) := by
  rcases updating_cases h with ⟨-, rfl⟩ | ⟨p, segments, -, -, rfl⟩
  · rw [Memory.execute_updateSql ht hfail hrows, hid]
    simp only [hmissing]
  · obtain ⟨rest, hparams⟩ := params_eq_cons p id segments
    rw [hparams, Memory.execute_updateSql ht hfail hrows, hid]
    simp only [hmissing]

theorem execute_updating {id : Cell} {update : Json.Members} {statement : Statement}
    (h : t.updating id update = .ok statement) {text : String} (hid : id.idText? = some text)
    {current : Json} (hcurrent : rows.get? text = some current) (hobject : current.IsObject) :
    (∃ e, m.execute statement = (.error e, m)) ∨
    ∃ members, m.execute statement =
        (.ok (Memory.documentRows [(text, .obj members)]),
          m.store t.storedName (rows.insert text (.obj members))) ∧
      (Patch.ofUpdate update = .ok none → members = update) := by
  rcases updating_cases h with ⟨-, rfl⟩ | ⟨p, segments, hpatch, hne, rfl⟩
  · right
    refine ⟨update, ?_, fun _ => rfl⟩
    have hbody : Memory.updatedBody
        (Patch.updateSql t.sqlName t.primaryKey [.placeholder 2]).render current
        [id, .json (.obj update)] = .ok (.obj update) := by
      rw [Memory.updatedBody, Memory.replacesBody_placeholder ht]
      rfl
    rw [Memory.execute_updateSql ht hfail hrows, hid]
    simp only [hcurrent, hbody]
  · obtain ⟨rest, hparams⟩ := params_eq_cons p id segments
    cases hbody : Memory.updatedBody
        (Patch.updateSql t.sqlName t.primaryKey (p.assignment segments).sql).render current
        (p.params id segments) with
    | error e =>
      left
      refine ⟨e, ?_⟩
      rw [hparams] at hbody ⊢
      rw [Memory.execute_updateSql ht hfail hrows, hid]
      simp only [hcurrent, hbody]
    | ok new =>
      right
      obtain ⟨members, rfl⟩ := object_of_updatedBody ht hne hobject hbody
      refine ⟨members, ?_, ?_⟩
      · rw [hparams] at hbody ⊢
        rw [Memory.execute_updateSql ht hfail hrows, hid]
        simp only [hcurrent, hbody]
      · intro hnone
        rw [hpatch] at hnone
        cases hnone

end Execution

/-! ## Saves -/

/-- What a save does that stores a body under the text of an id. An insertion
and a full update store the fields without the id. -/
structure Table.Stores (t : Table) (operation : SaveOperation) (fields : Json.Members)
    (fresh : Cell) (m : Memory) (text : String) (members : Json.Members) : Prop where
  used : ∃ id, t.usedId? operation fields fresh = some id ∧ id.idText? = some text
  inserted : operation = .insert → m.body? t.storedName text = none
  whole : operation = .insert ∨ Patch.ofUpdate (Entries.erase t.primaryKey fields) = .ok none →
    members = Entries.erase t.primaryKey fields

theorem Cell.display_of_idText? {id : Cell} {text : String} (h : id.idText? = some text) :
    id.display = text := by
  cases id with
  | text s => exact Option.some.inj h
  | int i => exact Option.some.inj h
  | _ => cases h

section Saves

variable (next : γ → Cell × γ) {t : Table} (ht : t.IsDocuments) {m : Memory}
  (hfail : m.failure = none) {rows : Rows} (hrows : m.tables.get? t.storedName = some rows) (g : γ)
include ht hfail hrows

theorem insertion_cases {fields : Json.Members} {fresh id : Cell}
    (hused : t.usedId? .insert fields fresh = some id) :
    (∃ e g', play (Memory.host next)
        (Table.store (t.insertion id (Entries.erase t.primaryKey fields)) id) (m, g) =
          (.error e, m, g')) ∨
      ∃ text members g', t.Stores .insert fields fresh m text members ∧
        play (Memory.host next)
          (Table.store (t.insertion id (Entries.erase t.primaryKey fields)) id) (m, g) =
            (.ok (.withId text members), m.store t.storedName (rows.insert text (.obj members)),
              g') := by
  have hexecute := Memory.execute_insertion ht hfail hrows id (Entries.erase t.primaryKey fields)
  cases hid : id.idText? with
  | none =>
    rw [hid] at hexecute
    exact .inl ⟨_, g, play_store_error next hexecute⟩
  | some text =>
    cases hrow : rows.get? text with
    | some current =>
      simp only [hid, hrow] at hexecute
      exact .inl ⟨_, g, play_store_error next hexecute⟩
    | none =>
      have habsent : m.body? t.storedName text = none := (m.body?_of_rows hrows text).trans hrow
      simp only [hid, hrow] at hexecute
      refine .inr ⟨text, _, g, ?_, play_store_row next hexecute⟩
      exact ⟨⟨id, hused, hid⟩, fun _ => habsent, fun _ => rfl⟩

theorem update_cases (hobjects : m.HoldsObjects)
    {fields : Json.Members} {fresh id : Cell} {statement : Statement}
    (hused : t.usedId? .update fields fresh = some id)
    (h : t.updating id (Entries.erase t.primaryKey fields) = .ok statement) :
    (∃ e g', play (Memory.host next) (Table.store statement id) (m, g) = (.error e, m, g')) ∨
      ∃ text members g', t.Stores .update fields fresh m text members ∧
        play (Memory.host next) (Table.store statement id) (m, g) =
          (.ok (.withId text members), m.store t.storedName (rows.insert text (.obj members)),
            g') := by
  cases hid : id.idText? with
  | none =>
    have hexecute := execute_updating_unusable ht hfail hrows h hid
    exact .inl ⟨_, g, play_store_error next hexecute⟩
  | some text =>
    cases hrow : rows.get? text with
    | none =>
      have hexecute := execute_updating_missing ht hfail hrows h hid hrow
      exact .inl ⟨_, g, play_store_empty next hexecute⟩
    | some current =>
      rcases execute_updating ht hfail hrows h hid hrow (hobjects.rows hrows hrow) with
        ⟨e, he⟩ | ⟨members, hnew, hwhole⟩
      · exact .inl ⟨e, g, play_store_error next he⟩
      · refine .inr ⟨text, members, g, ?_, play_store_row next hnew⟩
        exact ⟨⟨id, hused, hid⟩, nofun, fun hfull => hwhole (hfull.resolve_left nofun)⟩

/-- A save fails and leaves the store, or stores an object under the text of
the id it uses and returns it with that id. -/
theorem save_cases (hobjects : m.HoldsObjects) (operation : SaveOperation) (fields : Json.Members) :
    (∃ e g', play (Memory.host next) (t.save operation (.obj fields)) (m, g) =
        (.error e, m, g')) ∨
      ∃ text members g', t.Stores operation fields (next g).1 m text members ∧
        play (Memory.host next) (t.save operation (.obj fields)) (m, g) =
          (.ok (.withId text members), m.store t.storedName (rows.insert text (.obj members)),
            g') := by
  cases hsupplied : Table.suppliedId t.primaryKey fields with
  | error r =>
    left
    exact ⟨_, g, save_of_no_id _ _ hsupplied operation⟩
  | ok supplied =>
    cases operation with
    | insert =>
      cases supplied with
      | some id =>
        have hused : t.usedId? .insert fields (next g).1 = some id := by
          simp only [Table.usedId?, hsupplied]
        rw [save_insert _ _ hsupplied]
        exact insertion_cases next ht hfail hrows g hused
      | none =>
        have hused : t.usedId? .insert fields (next g).1 = some (next g).1 := by
          simp only [Table.usedId?, hsupplied]
        rw [save_insert_fresh _ _ hsupplied]
        split
        · exact .inl ⟨_, _, rfl⟩
        · exact insertion_cases next ht hfail hrows (next g).2 hused
    | update =>
      cases supplied with
      | none =>
        left
        exact ⟨_, g, save_update_without_id _ _ hsupplied⟩
      | some id =>
        have hused : t.usedId? .update fields (next g).1 = some id := by
          simp only [Table.usedId?, hsupplied]
        rw [save_update _ _ hsupplied]
        cases hupdate : t.updating id (Entries.erase t.primaryKey fields) with
        | error r => exact .inl ⟨_, g, rfl⟩
        | ok statement => exact update_cases next ht hfail hrows g hobjects hused hupdate

/-- An update of an id that is not stored finds no document, and does nothing. -/
theorem save_missing {fields : Json.Members} {id : Cell} {text : String} {statement : Statement}
    (hsupplied : Table.suppliedId t.primaryKey fields = .ok (some id))
    (hid : id.idText? = some text)
    (hupdate : t.updating id (Entries.erase t.primaryKey fields) = .ok statement)
    (hmissing : m.body? t.storedName text = none) :
    play (Memory.host next) (t.save .update (.obj fields)) (m, g) =
      (.error (.documentNotFound text), m, g) := by
  rw [Memory.body?_of_rows hrows] at hmissing
  have hexecute := execute_updating_missing ht hfail hrows hupdate hid hmissing
  rw [save_update _ _ hsupplied, hupdate]
  dsimp only
  rw [play_store_empty next hexecute, Cell.display_of_idText? hid]

end Saves

end DocStore
