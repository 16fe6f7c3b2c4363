import DocStore.Proofs.Entries
import DocStore.Proofs.Json.WellFormed
import DocStore.Proofs.Memory.Save

/-!
# The order of what is stored

A statement leaves the store as it is, adds a table without rows, or puts
one body under an id of a table. So the rows of every table stay in the
order of their ids, whatever is sent to the store and by whom: no use is
made of what the statements say. And the members inside of every body stay
in the order of their keys, as long as those of the bodies that are sent are.

Main statements: `changes_execute`, `sortedRows_run`, `wellFormedBodies_run`.
-/

namespace DocStore

namespace Memory

/-- What a statement can make of a store, if it writes only bodies with a property. -/
inductive Changes (p : Json → Prop) (m : Memory) : Memory → Prop where
  | unchanged : Changes p m m
  | created (table : String) : Changes p m (m.create table)
  | stored {table : String} {rows : Rows} (h : m.tables.get? table = some rows) (id : String)
    {body : Json} (hbody : p body) : Changes p m (m.store table (rows.insert id body))

/-- Every body that parameters bring, or that an update makes with them of a stored
body, has the property. -/
structure Writes (m : Memory) (params : List Cell) (p : Json → Prop) : Prop where
  param : ∀ {body}, jsonParam params 1 = .ok body → p body
  updated : ∀ {table rows id current text body}, m.tables.get? table = some rows →
    rows.get? id = some current → Jsonb.evaluate text current params = .ok (some body) → p body

theorem writes_true (m : Memory) (params : List Cell) : m.Writes params fun _ => True :=
  ⟨fun _ => trivial, fun _ _ _ => trivial⟩

/-! ## One statement -/

theorem relation_eq_ok {m : Memory} {name : String} {rows : Rows} (h : m.relation name = .ok rows) :
    m.tables.get? name = some rows := by
  unfold relation at h
  split at h
  · next rows' hrows =>
    cases h
    exact hrows
  · cases h

section Statements

variable {m m' : Memory} {rest : String} {params : List Cell} {reply : QueryResult}
  {p : Json → Prop} (hp : m.Writes params p)
include hp

theorem changes_runInsert (h : m.runInsert rest params = .ok (reply, m')) : m.Changes p m' := by
  obtain ⟨rows, hrows, h⟩ := bind_eq_ok h
  obtain ⟨id, -, h⟩ := bind_eq_ok h
  obtain ⟨body, hbody, h⟩ := bind_eq_ok h
  split at h
  · cases h
  · cases h
    exact .stored (relation_eq_ok hrows) id (hp.param hbody)

theorem changes_runUpdate {sql : String} (h : m.runUpdate sql rest params = .ok (reply, m')) :
    m.Changes p m' := by
  obtain ⟨rows, hrows, h⟩ := bind_eq_ok h
  obtain ⟨id, -, h⟩ := bind_eq_ok h
  split at h
  · cases h
    exact .unchanged
  · rename_i current hcurrent
    obtain ⟨body, hbody, h⟩ := bind_eq_ok h
    cases h
    refine .stored (relation_eq_ok hrows) id ?_
    unfold updatedBody at hbody
    split at hbody
    · exact hp.param hbody
    · split at hbody
      · cases hbody
      · obtain ⟨body', hevaluate, hbody⟩ := bind_eq_ok hbody
        split at hbody <;> cases hbody
        exact hp.updated (relation_eq_ok hrows) hcurrent hevaluate

theorem changes_runStatement {sql : String} (h : m.runStatement sql params = .ok (reply, m')) :
    m.Changes p m' := by
  unfold runStatement at h
  split at h
  · cases h
    exact .unchanged
  · cases h
    exact .created _
  · exact changes_runInsert hp h
  · exact changes_runUpdate hp h
  · obtain ⟨reply', -, h⟩ := map_eq_ok h
    cases h
    exact .unchanged
  · cases h

end Statements

theorem changes_execute {m : Memory} {statement : Statement} {p : Json → Prop}
    (hp : m.Writes statement.params p) : m.Changes p (m.execute statement).2 := by
  unfold execute
  split
  · exact .unchanged
  · split
    · exact .unchanged
    · split
      · exact .unchanged
      · split
        · next hrun => exact changes_runStatement hp hrun
        · exact .unchanged

/-! ## All tables -/

/-- All stored rows of a table have the property. -/
def AllRows (p : Rows → Prop) (m : Memory) : Prop :=
  ∀ table rows, m.tables.get? table = some rows → p rows

theorem AllRows.store {p : Rows → Prop} {m : Memory} (h : m.AllRows p) (name : String)
    {rows : Rows} (hrows : p rows) : (m.store name rows).AllRows p := by
  intro table found hfound
  rw [Memory.store, Entries.get?_insert] at hfound
  split at hfound
  · cases hfound
    exact hrows
  · exact h table found hfound

/-- What holds without rows and is kept by one more body holds after a statement. -/
theorem AllRows.changes {p : Rows → Prop} {q : Json → Prop} {m m' : Memory} (hm : m.AllRows p)
    (hempty : p []) (hinsert : ∀ {rows id body}, p rows → q body → p (Entries.insert id body rows))
    (h : m.Changes q m') : m'.AllRows p := by
  cases h with
  | unchanged => exact hm
  | created name =>
    unfold create
    split
    · exact hm
    · exact hm.store name hempty
  | stored hrows id hbody => exact hm.store _ (hinsert (hm _ _ hrows) hbody)

/-- The rows of every table are in the order of their ids. -/
def SortedRows (m : Memory) : Prop := m.AllRows fun rows => rows.Sorted

theorem SortedRows.execute {m : Memory} (hm : m.SortedRows) (statement : Statement) :
    (m.execute statement).2.SortedRows :=
  hm.changes .nil (fun hrows _ => hrows.insert _ _)
    (changes_execute (writes_true m statement.params))

/-- The members inside of every stored body are in the order of their keys. -/
def WellFormedBodies (m : Memory) : Prop := m.AllRows fun rows => ∀ row ∈ rows, row.2.WellFormed

theorem WellFormedBodies.writes {m : Memory} (hm : m.WellFormedBodies) {params : List Cell}
    (hparams : Cell.AllWellFormed params) : m.Writes params Json.WellFormed where
  param h := by
    unfold jsonParam at h
    split at h
    · rename_i hget
      cases h
      exact hparams _ (List.mem_of_getElem? hget)
    · split at h <;> cases h
      rename_i hread
      exact Json.wellFormed_of_read? hread
    · cases h
  updated hrows hget hevaluate :=
    Jsonb.wellFormed_of_evaluate (hm _ _ hrows _ (Entries.mem_of_get? hget)) hparams hevaluate

theorem WellFormedBodies.execute {m : Memory} (hm : m.WellFormedBodies) {statement : Statement}
    (hparams : Cell.AllWellFormed statement.params) :
    (m.execute statement).2.WellFormedBodies :=
  hm.changes nofun (fun hrows hbody => Json.forall_mem_insert hbody hrows)
    (changes_execute (hm.writes hparams))

end Memory

/-! ## Any number of statements -/

namespace Session

variable {α γ : Type}

/-- What statements of a kind preserve is preserved by a session that sends no others. -/
theorem run_preserves {p : Memory → Prop} {q : Statement → Prop}
    (hstep : ∀ {m statement}, p m → q statement → p (m.execute statement).2)
    (next : γ → Cell × γ) (s : Session α) {m : Memory} (g : γ) (h : p m)
    (hsent : ∀ statement ∈ (s.run (Memory.host next) (m, g)).sent, q statement) :
    p (s.run (Memory.host next) (m, g)).state.1 := by
  induction s generalizing m g with
  | done a => exact h
  | connect url rest ih => exact ih _ g h hsent
  | send statement rest ih =>
    obtain ⟨hfirst, hrest⟩ := List.forall_mem_cons.mp hsent
    exact ih _ g (hstep h hfirst) hrest
  | newId rest ih => exact ih _ _ h hsent

theorem sortedRows_run (next : γ → Cell × γ) (s : Session α) {m : Memory}
    (g : γ) (h : m.SortedRows) : (s.run (Memory.host next) (m, g)).state.1.SortedRows :=
  run_preserves (q := fun _ => True) (fun hm _ => hm.execute _) next s g h fun _ _ => trivial

theorem wellFormedBodies_run (next : γ → Cell × γ) (s : Session α) {m : Memory} (g : γ)
    (h : m.WellFormedBodies)
    (hsent : ∀ statement ∈ (s.run (Memory.host next) (m, g)).sent,
      Cell.AllWellFormed statement.params) :
    (s.run (Memory.host next) (m, g)).state.1.WellFormedBodies :=
  run_preserves (fun hm hparams => hm.execute hparams) next s g h hsent

end Session

end DocStore
