import DocStore.Proofs.Memory.NoSave

/-!
# What a store remembers

A database is used with a store for a while: operations are carried out
one after the other, on any tables of documents and under any ids. What
has been saved so far is kept as a list of tables and documents, the
latest first, and at every point the store holds for each id just the
latest document of the list (`Consistent`). From that follows what the
next operation answers, whatever it is (`Faithful`).

A step is one of two kinds: it stores one body under one id of one
table, or leaves every body. The first kind is a successful save; the
second one are failures, searches, and the creation of collections.

Main statement: `faithful_run`.
-/

namespace DocStore

open Call

variable {γ : Type}

/-! ## Worlds -/

/-- What has been saved, table and document, the latest first. -/
abbrev Saves := List (Table × Document)

/-- The text of the id of a document. -/
def Document.idText? (d : Document) : Option String := d.id?.bind Json.text?

@[simp] theorem Document.idText?_withId (text : String) (members : Json.Members) :
    (Document.withId text members).idText? = some text := by
  rw [idText?, id?, withId, Entries.get?_insert_self]
  rfl

/-- The latest document that was saved to a table with a text as its id. -/
def Saves.last? : Saves → Table → String → Option Document
  | [], _, _ => none
  | (saved, d) :: earlier, t, text =>
    if saved.schema = t.schema ∧ saved.name = t.name ∧ d.idText? = some text then some d
    else last? earlier t text

/-- A database in use, with its store, the source of new ids, and what has
been saved. -/
structure World (γ : Type) where
  db : Database
  memory : Memory
  ids : γ
  saves : Saves

namespace World

section Steps

variable (next : γ → Cell × γ)

def outcome (w : World γ) (o : Operation) :
    Outcome (Except DbError Answer × Database) (Memory × γ) :=
  o.run (Memory.host next) w.db (w.memory, w.ids)

/-- What an operation answers. -/
def answer (w : World γ) (o : Operation) : Except DbError Answer := (w.outcome next o).value.1

/-- What an operation adds to the saves. -/
def savesAfter (w : World γ) (o : Operation) : Saves :=
  match o.save? w.db, w.answer next o with
  | some s, .ok (.document d) => (s.table, d) :: w.saves
  | _, _ => w.saves

/-- The world when an operation has been carried out. -/
def step (w : World γ) (o : Operation) : World γ where
  db := (w.outcome next o).value.2
  memory := (w.outcome next o).state.1
  ids := (w.outcome next o).state.2
  saves := w.savesAfter next o

/-- The world when some operations have been carried out in order. -/
def run (w : World γ) (ops : List Operation) : World γ := ops.foldl (step next) w

end Steps

/-- An operation that saves goes to a table of documents which is there or
will be created. -/
def Admits (w : World γ) (o : Operation) : Prop :=
  ∀ s, o.save? w.db = some s → s.table.IsDocuments ∧ s.Reaches w.memory

/-- Every operation is admitted when its turn comes. -/
def AdmitsAll (next : γ → Cell × γ) : World γ → List Operation → Prop
  | _, [] => True
  | w, o :: ops => w.Admits o ∧ AdmitsAll next (w.step next o) ops

/-! ## The invariant -/

/-- The store works, and holds the latest documents. -/
structure Consistent (w : World γ) : Prop where
  works : w.memory.failure = none
  objects : w.memory.HoldsObjects
  latest : ∀ t : Table, t.IsDocuments → ∀ text,
    (w.memory.body? t.storedName text).bind (Document.ofBody? text) = w.saves.last? t text

/-- The operation is a save that puts a body under the text of an id. -/
structure Puts (next : γ → Cell × γ) (w : World γ) (o : Operation) (s : Save) (text : String)
    (members : Json.Members) : Prop where
  save : o.save? w.db = some s
  table : s.table.IsDocuments
  stores : s.table.Stores s.operation s.fields (next w.ids).1 w.memory text members
  answer : w.answer next o = .ok (.document (.withId text members))
  put : w.memory.Put (w.step next o).memory s.table.storedName text (.obj members)

section Step

variable {next : γ → Cell × γ} {w : World γ} {o : Operation} {s : Save}

theorem answer_of_save (h : o.save? w.db = some s) :
    w.answer next o =
      (play (Memory.host next) s.call (w.memory, w.ids)).1.map .document :=
  (o.run_save (Memory.host next) h (w.memory, w.ids)).1

theorem memory_step_of_save (h : o.save? w.db = some s) :
    (w.step next o).memory = (play (Memory.host next) s.call (w.memory, w.ids)).2.1 :=
  congrArg Prod.fst (o.run_save (Memory.host next) h (w.memory, w.ids)).2

/-- All that a step can do. -/
theorem step_cases (hw : w.Consistent) (ho : w.Admits o) :
    (w.memory.SameBodies (w.step next o).memory ∧
        ∀ s, o.save? w.db = some s → ∃ e, w.answer next o = .error e) ∨
      ∃ s text members, Puts next w o s text members := by
  cases hsave : o.save? w.db with
  | none =>
    left
    exact ⟨sameBodies_of_no_save next w.ids hw.works hsave, nofun⟩
  | some s =>
    obtain ⟨ht, hreaches⟩ := ho s hsave
    have hanswer : w.answer next o = _ := answer_of_save hsave
    have hmemory : (w.step next o).memory = _ := memory_step_of_save hsave
    rcases s.call_cases next ht hw.works hreaches hw.objects w.ids with
      ⟨e, g', hplay⟩ | ⟨text, members, m', g', hstores, hplay, hput⟩
    · rw [hplay] at hanswer hmemory
      left
      refine ⟨?_, fun _ _ => ⟨e, hanswer⟩⟩
      rw [hmemory]
      exact s.sameBodies_prepared w.memory
    · rw [hplay] at hanswer hmemory
      right
      refine ⟨s, text, members, hsave, ht, hstores, hanswer, ?_⟩
      rw [hmemory]
      exact hput

theorem saves_step_of_failure (h : ∀ s, o.save? w.db = some s → ∃ e, w.answer next o = .error e) :
    (w.step next o).saves = w.saves := by
  show w.savesAfter next o = w.saves
  unfold savesAfter
  cases hsave : o.save? w.db with
  | none => rfl
  | some s =>
    obtain ⟨e, he⟩ := h s hsave
    rw [he]

theorem saves_step_of_puts {text : String} {members : Json.Members}
    (h : Puts next w o s text members) :
    (w.step next o).saves = (s.table, .withId text members) :: w.saves := by
  show w.savesAfter next o = _
  unfold savesAfter
  rw [h.save, h.answer]

/-- A body that is put is what the save returned, and the latest; all others
stay as they were. -/
theorem latest_of_puts {text : String} {members : Json.Members}
    (h : Puts next w o s text members) (hw : w.Consistent) {t : Table} (ht : t.IsDocuments)
    (id : String) :
    ((w.step next o).memory.body? t.storedName id).bind (Document.ofBody? id) =
      (w.step next o).saves.last? t id := by
  rw [h.put.bodies, saves_step_of_puts h, Saves.last?, Document.idText?_withId]
  by_cases hsame : s.table.schema = t.schema ∧ s.table.name = t.name ∧ some text = some id
  · obtain ⟨hschema, hname, hid⟩ := hsame
    have hstored : t.storedName = s.table.storedName := by
      rw [Table.storedName, Table.storedName, hschema, hname]
    cases hid
    rw [if_pos ⟨hstored, rfl⟩, if_pos ⟨hschema, hname, rfl⟩]
    rfl
  · have hother : ¬ (t.storedName = s.table.storedName ∧ id = text) := by
      rintro ⟨hstored, rfl⟩
      obtain ⟨hschema, hname⟩ :=
        Memory.storedName_inj ht.schema ht.name h.table.schema h.table.name hstored
      exact hsame ⟨hschema.symm, hname.symm, rfl⟩
    rw [if_neg hother, if_neg hsame]
    exact hw.latest t ht id

theorem consistent_step (hw : w.Consistent) (ho : w.Admits o) : (w.step next o).Consistent := by
  rcases step_cases hw ho with ⟨hsame, hfails⟩ | ⟨s, text, members, hputs⟩
  · refine ⟨hsame.failure.trans hw.works, hsame.holdsObjects hw.objects, ?_⟩
    intro t ht text
    rw [hsame.bodies, saves_step_of_failure hfails]
    exact hw.latest t ht text
  · exact ⟨hputs.put.failure.trans hw.works, hputs.put.holdsObjects hw.objects,
      fun t ht id => latest_of_puts hputs hw ht id⟩

/-- No table is lost. -/
theorem hasTable_step (hw : w.Consistent) (ho : w.Admits o) {name : String}
    (h : w.memory.hasTable name = true) : (w.step next o).memory.hasTable name = true := by
  rcases step_cases hw ho with ⟨hsame, -⟩ | ⟨s, text, members, hputs⟩
  · exact hsame.tables name h
  · exact hputs.put.tables name h

end Step

section Run

variable {next : γ → Cell × γ} {ops : List Operation} {w : World γ}

/-- The invariant holds whatever has been done. -/
theorem consistent_run (hw : w.Consistent) (hops : w.AdmitsAll next ops) :
    (w.run next ops).Consistent := by
  induction ops generalizing w with
  | nil => exact hw
  | cons o ops ih => exact ih (consistent_step hw hops.1) hops.2

theorem hasTable_run (hw : w.Consistent) (hops : w.AdmitsAll next ops) {name : String}
    (h : w.memory.hasTable name = true) : (w.run next ops).memory.hasTable name = true := by
  induction ops generalizing w with
  | nil => exact h
  | cons o ops ih =>
    exact ih (consistent_step hw hops.1) hops.2 (hasTable_step hw hops.1 h)

end Run

/-! ## What the next operation answers -/

/-- Whatever is done next, the answer is what the saves so far require. -/
structure Faithful (next : γ → Cell × γ) (w : World γ) : Prop where
  /-- A look-up finds the latest document that was saved with the text of the id. -/
  finds : ∀ (t : Table) (id : Cell) (text : String), t.IsDocuments →
    w.memory.hasTable t.storedName = true → id.idText? = some text →
    w.answer next (.ofEntity (.findById t id)) = .ok (.document? (w.saves.last? t text))
  /-- A failure leaves every document of every table. -/
  keeps : ∀ o e, w.Admits o → w.answer next o = .error e →
    ∀ table id, (w.step next o).memory.body? table id = w.memory.body? table id
  /-- A save returns a document with the text of the id it used; an insertion
  or a full update returns the fields with it. -/
  returns : ∀ o s a, w.Admits o → o.save? w.db = some s → w.answer next o = .ok a →
    ∃ id text members, s.id? (next w.ids).1 = some id ∧ id.idText? = some text ∧
      a = .document (.withId text members) ∧
      (s.operation = .insert ∨ Patch.ofUpdate s.body = .ok none → members = s.body)
  /-- An id is not inserted twice. -/
  duplicates : ∀ o s id text, w.Admits o → o.save? w.db = some s → s.operation = .insert →
    s.id? (next w.ids).1 = some id → id.idText? = some text → w.saves.last? s.table text ≠ none →
    ∃ e, w.answer next o = .error e
  /-- An update that is right in itself, of an id that was never saved, finds
  no document and creates none. -/
  misses : ∀ o s id text statement, w.Admits o → o.save? w.db = some s → s.operation = .update →
    s.id? (next w.ids).1 = some id → id.idText? = some text →
    s.table.updating id s.body = .ok statement → w.saves.last? s.table text = none →
    w.answer next o = .error (.documentNotFound text) ∧
      (∀ table id, (w.step next o).memory.body? table id = w.memory.body? table id) ∧
      (w.memory.hasTable s.table.storedName = true → (w.step next o).memory = w.memory)

section Answers

variable {next : γ → Cell × γ} {w : World γ} (hw : w.Consistent)
include hw

theorem answer_findById {t : Table} (ht : t.IsDocuments)
    (hthere : w.memory.hasTable t.storedName = true) {id : Cell} {text : String}
    (hid : id.idText? = some text) :
    w.answer next (.ofEntity (.findById t id)) = .ok (.document? (w.saves.last? t text)) := by
  obtain ⟨rows, hrows⟩ := Option.isSome_iff_exists.mp hthere
  have hplay := play_findById next ht hw.works hrows w.ids hw.objects hid
  have hanswer : w.answer next (.ofEntity (.findById t id)) =
      (play (Memory.host next) (do return Answer.document? (← t.findById id))
        (w.memory, w.ids)).1 := by
    show ((Action.session (Action.call _) w.db).run (Memory.host next) _).value.1 = _
    rw [Action.run_call]
    rfl
  rw [hanswer, play_map, hplay, ← hw.latest t ht]
  rfl

/-- In a consistent world a document is stored just when one was saved. -/
theorem body?_eq_none_iff {t : Table} (ht : t.IsDocuments) (text : String) :
    w.memory.body? t.storedName text = none ↔ w.saves.last? t text = none := by
  rw [← hw.latest t ht]
  cases hbody : w.memory.body? t.storedName text with
  | none => exact ⟨fun _ => rfl, fun _ => rfl⟩
  | some body =>
    obtain ⟨members, rfl⟩ := hw.objects _ _ _ hbody
    exact ⟨nofun, nofun⟩

theorem keeps_of_error {o : Operation} {e : DbError} (ho : w.Admits o)
    (h : w.answer next o = .error e) (table id : String) :
    (w.step next o).memory.body? table id = w.memory.body? table id := by
  rcases step_cases hw ho with ⟨hsame, -⟩ | ⟨s, text, members, hputs⟩
  · exact hsame.bodies table id
  · rw [hputs.answer] at h
    cases h

theorem puts_of_ok {o : Operation} {s : Save} {a : Answer} (ho : w.Admits o)
    (hsave : o.save? w.db = some s) (h : w.answer next o = .ok a) :
    ∃ text members, Puts next w o s text members ∧ a = .document (.withId text members) := by
  rcases step_cases hw ho with ⟨-, hfails⟩ | ⟨s', text, members, hputs⟩
  · obtain ⟨e, he⟩ := hfails s hsave
    rw [he] at h
    cases h
  · have hs : s' = s := Option.some.inj (hputs.save.symm.trans hsave)
    have ha := hputs.answer.symm.trans h
    subst hs
    cases ha
    exact ⟨text, members, hputs, rfl⟩

theorem answer_missing {o : Operation} {s : Save} {id : Cell} {text : String}
    {statement : Statement} (ho : w.Admits o) (hsave : o.save? w.db = some s)
    (hoperation : s.operation = .update) (hused : s.id? (next w.ids).1 = some id)
    (hid : id.idText? = some text) (hupdate : s.table.updating id s.body = .ok statement)
    (hmissing : w.saves.last? s.table text = none) :
    w.answer next o = .error (.documentNotFound text) ∧
      (w.step next o).memory = s.prepared w.memory := by
  obtain ⟨ht, hreaches⟩ := ho s hsave
  have hplay := s.call_missing next ht hw.works hreaches hoperation hused hid hupdate
    ((body?_eq_none_iff hw ht text).mpr hmissing)
  rw [answer_of_save hsave, memory_step_of_save hsave, hplay]
  exact ⟨rfl, rfl⟩

/-- A consistent world is faithful. -/
theorem Consistent.faithful : w.Faithful next where
  finds t id text ht hthere hid := answer_findById hw ht hthere hid
  keeps o e ho h := keeps_of_error hw ho h
  returns o s a ho hsave h := by
    obtain ⟨text, members, hputs, ha⟩ := puts_of_ok hw ho hsave h
    obtain ⟨id, hused, hid⟩ := hputs.stores.used
    exact ⟨id, text, members, hused, hid, ha, hputs.stores.whole⟩
  duplicates o s id text ho hsave hoperation hused hid hsaved := by
    cases hanswer : w.answer next o with
    | error e => exact ⟨e, rfl⟩
    | ok a =>
      obtain ⟨text', members, hputs, -⟩ := puts_of_ok hw ho hsave hanswer
      obtain ⟨id', hused', hid'⟩ := hputs.stores.used
      cases hused.symm.trans hused'
      cases hid.symm.trans hid'
      have habsent := hputs.stores.inserted hoperation
      exact absurd ((body?_eq_none_iff hw hputs.table text).mp habsent) hsaved
  misses o s id text statement ho hsave hoperation hused hid hupdate hmissing := by
    obtain ⟨hanswer, hmemory⟩ :=
      answer_missing hw ho hsave hoperation hused hid hupdate hmissing
    refine ⟨hanswer, keeps_of_error hw ho hanswer, fun hthere => ?_⟩
    rw [hmemory, Save.prepared_of_hasTable hthere]

end Answers

/-- Nothing has been stored or saved yet. -/
structure IsFresh (w : World γ) : Prop where
  works : w.memory.failure = none
  empty : ∀ table id, w.memory.body? table id = none
  saves : w.saves = []

/-- After any operations on tables of documents, all tables are still there,
and whatever is done next is answered as the saves so far require. -/
theorem faithful_run {next : γ → Cell × γ} {w : World γ} (hw : w.IsFresh) {ops : List Operation}
    (hops : w.AdmitsAll next ops) :
    (∀ name, w.memory.hasTable name = true → (w.run next ops).memory.hasTable name = true) ∧
      (w.run next ops).Faithful next := by
  have hstart : w.Consistent := by
    refine ⟨hw.works, ?_, ?_⟩
    · intro table id body h
      rw [hw.empty] at h
      cases h
    · intro t _ text
      rw [hw.empty, hw.saves]
      rfl
  exact ⟨fun name h => hasTable_run hstart hops h, (consistent_run hstart hops).faithful⟩

/-- A database with a table, which is stored without rows. -/
def ofTable (t : Table) (ids : γ) : World γ where
  db := .bind (.ofConfig {}) (.table t)
  memory := Memory.addTable {} ⟨t.schema, t.name, some t.primaryKey⟩
  ids := ids
  saves := []

theorem isFresh_ofTable (t : Table) (ids : γ) : (ofTable t ids).IsFresh := by
  have hcreate := Memory.sameBodies_create {} (Memory.storedName t.schema t.name)
  exact ⟨hcreate.failure, fun table id => (hcreate.bodies table id).trans rfl, rfl⟩

/-- A user is inserted and looked up. -/
theorem faithful_run_users :
    let users : Table := ⟨"public", "users", "id", ⟨"public", 1000⟩⟩
    let next : Nat → Cell × Nat := fun n => (.int (.ofNat n), n + 1)
    let ops : List Operation :=
      [.ofEntity (.insert users (.obj [("id", .str "1"), ("name", .str "Ada")])),
        .ofEntity (.findById users (.text "1"))]
    (ofTable users 0).IsFresh ∧ (ofTable users 0).AdmitsAll next ops ∧
      (ofTable users 0).memory.hasTable users.storedName = true ∧
      ((ofTable users 0).run next ops).memory.hasTable users.storedName = true ∧
      ((ofTable users 0).run next ops).Faithful next := by
  intro users next ops
  have hschema : IsPlain "public" := isPlain_of_all (by decide)
  have hname : IsPlain "users" := isPlain_of_all (by decide)
  have husers : users.IsDocuments := ⟨rfl, rfl, hschema, hname⟩
  have hops : (ofTable users 0).AdmitsAll next ops := by
    refine ⟨?_, nofun, trivial⟩
    rintro s ⟨⟩
    exact ⟨husers, .inr rfl⟩
  obtain ⟨htables, hfaithful⟩ := faithful_run (isFresh_ofTable users 0) hops
  exact ⟨isFresh_ofTable users 0, hops, rfl, htables _ rfl, hfaithful⟩

end World

end DocStore
