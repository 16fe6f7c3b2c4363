import DocStore.Proofs.Memory.Save
import DocStore.Proofs.Memory.Select

/-!
# Searching the store

A search sends nothing but a `select`, and a call that does nothing but
search leaves the store as it is. A look-up of an id answers with the
body that is stored under its text.

Main statements: `play_find`, `play_findById`.
-/

namespace DocStore

variable {γ α β : Type}

/-- The document of a stored body; none if that is no object. -/
def Document.ofBody? (text : String) (body : Json) : Option Document :=
  body.members?.map (.withId text)

/-! ## Calls that only read -/

namespace Call

variable (next : γ → Cell × γ)

/-- Leaves the store as it is. -/
def Reads (c : Call α) : Prop := ∀ m g, (play (Memory.host next) c (m, g)).2.1 = m

variable {next}

theorem reads_done (r : Except DbError α) : Reads next (ExceptT.mk (.done r)) := fun _ _ => rfl

theorem Reads.bind {c : Call α} {f : α → Call β} (hc : Reads next c) (hf : ∀ a, Reads next (f a)) :
    Reads next (c >>= f) := by
  intro m g
  have hfirst := hc m g
  rw [play_bind]
  rcases hplay : play (Memory.host next) c (m, g) with ⟨r, m', g'⟩
  rw [hplay] at hfirst
  cases r with
  | ok a =>
    have hm : m' = m := hfirst
    exact (hf a m' g').trans hm
  | error e => exact hfirst

theorem Reads.map {c : Call α} (hc : Reads next c) (f : α → β) :
    Reads next (do return f (← c)) := hc.bind fun _ => reads_done _

theorem reads_send {statement : Statement} {rest : List Char}
    (h : statement.sql = .ofList ('s' :: rest)) : Reads next (send statement) := by
  intro m g
  rw [play_send, execute_host]
  dsimp only
  exact Memory.execute_search m h

end Call

open Call

section Searches

variable {next : γ → Cell × γ}

theorem reads_find (t : Table) (condition : Condition) (options : FindOptions) :
    Reads next (t.find condition options) := by
  refine (reads_done _).bind fun predicate => Reads.bind ?_ fun _ => reads_done _
  exact reads_send (congrArg String.ofList (Sql.chars_cons _ _))

theorem reads_search (t : Table) (keys : List String) (term : String) :
    Reads next (t.search keys term) := by
  unfold Table.search
  split
  · exact reads_done _
  · refine (reads_done _).bind fun searched => Reads.bind ?_ fun _ => reads_done _
    exact reads_send (congrArg String.ofList (Sql.chars_cons _ _))

theorem reads_invoke (f : Function) (args : List Cell) : Reads next (f.invoke args) := by
  unfold Function.invoke
  split
  · exact reads_send (congrArg String.ofList (Sql.chars_cons _ _))
  · exact reads_done _

end Searches

/-! ## Replies -/

/-- A search compiles, sends the predicate, and reads the reply. -/
theorem play_find (next : γ → Cell × γ) {t : Table} {condition : Condition} {options : FindOptions}
    {p : Predicate} {m : Memory} {reply : QueryResult} {result : FindResult}
    (hcompile : condition.compile t.primaryKey = .ok p)
    (hexecute : m.execute (.ofSql (t.findSql p options) p.params p.lookup) = (.ok reply, m))
    (hresult : Table.findResult p reply = .ok result) (g : γ) :
    play (Memory.host next) (t.find condition options) (m, g) = (.ok result, m, g) := by
  show play (Memory.host next) (check (condition.compile t.primaryKey) >>= _) (m, g) = _
  rw [hcompile]
  show play (Memory.host next)
    (send (.ofSql (t.findSql p options) p.params p.lookup) >>= _) (m, g) = _
  rw [play_bind, play_send, execute_host, hexecute]
  show play (Memory.host next) (decode (Table.findResult p reply)) (m, g) = _
  rw [hresult]
  rfl

section Lookup

variable (next : γ → Cell × γ) {t : Table} (ht : t.IsDocuments) {m : Memory}
  (hfail : m.failure = none) {rows : Rows} (hrows : m.tables.get? t.storedName = some rows) (g : γ)
include ht hfail hrows

/-- A look-up finds the body that is stored under the text of the id. -/
theorem play_findById (hobjects : m.HoldsObjects) {id : Cell} {text : String}
    (hid : id.idText? = some text) :
    play (Memory.host next) (t.findById id) (m, g) =
      (.ok ((m.body? t.storedName text).bind (Document.ofBody? text)), m, g) := by
  have hcompile : (Condition.byId id).compile t.primaryKey = .ok (Memory.lookupPredicate id) := by
    rw [ht.primaryKey, Memory.compile_byId hid]
  have hresult : Table.findResult (Memory.lookupPredicate id)
      (Memory.documentRows ((rows.get? text).toList.map fun body => (text, body))) =
        .ok (.one ((rows.get? text).bind (Document.ofBody? text))) := by
    cases hrow : rows.get? text with
    | none => rfl
    | some body =>
      obtain ⟨members, rfl⟩ := hobjects.rows hrows hrow
      rfl
  have hfind := play_find next hcompile
    (Memory.execute_lookup ht hfail hrows hid) hresult g
  rw [Memory.body?_of_rows hrows]
  show play (Memory.host next) (t.find (.byId id) {} >>= _) (m, g) = _
  rw [play_bind, hfind]
  dsimp only
  rw [play_pure]
  cases (rows.get? text).bind (Document.ofBody? text) <;> rfl

end Lookup

end DocStore
