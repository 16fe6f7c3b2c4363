import DocStore.Proofs.Exchange

/-!
# The column of the id

Statements name the primary key of the table; a row is read by the column
`id`, whatever the table. The two agree exactly for tables whose primary
key has that name. For every other table the row that the database
returns for a save or a lookup is malformed, although the statement was
carried out.

Main statement: `shows_key_iff`.
-/

namespace DocStore

variable {σ : Type}

/-! ## Rows of a table -/

/-- One row with the key and a body of the members, under the names of the
table's own columns. -/
def QueryResult.IsRow (r : QueryResult) (primaryKey : String) (key : Cell)
    (members : Json.Members) : Prop :=
  ∃ row body, r.rows = [row] ∧
    (∀ name, name ∈ r.columns ↔ name = primaryKey ∨ name = Document.bodyColumn) ∧
    r.cell? row primaryKey = some key ∧
    r.cell? row Document.bodyColumn = some body ∧ Document.bodyMembers body = .ok members

theorem cell?_of_not_mem {r : QueryResult} {name : String} (h : name ∉ r.columns)
    (row : List Cell) : r.cell? row name = none := by
  have hindex : r.columnIndex? name = none := by
    rw [QueryResult.columnIndex?, List.findIdx?_eq_none_iff]
    intro other hother
    exact beq_false_of_ne fun heq => h (heq ▸ hother)
  rw [QueryResult.cell?, hindex, Option.bind_none]

section Row

variable {r : QueryResult} {primaryKey : String} {key : Cell} {members : Json.Members}

theorem ofRow_of_key_named_id (h : r.IsRow primaryKey key members)
    (hname : primaryKey = Document.idColumn) : ∃ row, r.rows = [row] ∧
      Document.ofRow r row = .ok ⟨Entries.insert Document.idColumn key.toJson members⟩ := by
  obtain ⟨row, body, hrows, -, hkey, hbody, hmembers⟩ := h
  rw [hname] at hkey
  refine ⟨row, hrows, ?_⟩
  simp only [Document.ofRow, Document.column, hkey, hbody]
  show (Document.bodyMembers body >>= fun members => _) = _
  rw [hmembers]
  rfl

theorem ofRow_of_key_named_otherwise (h : r.IsRow primaryKey key members)
    (hname : primaryKey ≠ Document.idColumn) : ∃ row, r.rows = [row] ∧
      Document.ofRow r row = .error (.noColumn Document.idColumn) := by
  obtain ⟨row, body, hrows, hcolumns, -⟩ := h
  have hnone : Document.idColumn ∉ r.columns := fun hmem =>
    ((hcolumns _).mp hmem).elim (fun heq => hname heq.symm) (by decide)
  refine ⟨row, hrows, ?_⟩
  simp only [Document.ofRow, Document.column, cell?_of_not_mem hnone]
  rfl

end Row

/-! ## Operations on one row -/

/-- The document of an answer that is at most one document. -/
def Answer.single? : Answer → Option Document
  | .document d => some d
  | .document? d => d
  | _ => none

namespace EntityOperation

/-- Saves a document of the table or looks one up by its id. -/
def ConcernsRow (t : Table) : EntityOperation → Prop
  | .findById table _ => table = t
  | .save table _ _ => table = t
  | .insert table _ => table = t
  | .update table _ => table = t
  | .updateById table _ _ => table = t
  | _ => False

theorem readsFirst_of_concernsRow {o : EntityOperation} {t : Table} (ho : o.ConcernsRow t)
    {fresh : Cell} {read : QueryResult → Except DbError Answer} (h : o.Reads fresh read) :
    ∃ missing found, ReadsFirst read missing found ∧ ∀ d, (found d).single? = some d := by
  have hsaved : (∃ s id, o.save? = some s ∧ s.id? fresh = some id ∧
      ReadsFirst read (.error (.documentNotFound id.display)) .document) →
      ∃ missing found, ReadsFirst read missing found ∧ ∀ d, (found d).single? = some d := by
    rintro ⟨s, id, -, -, hread⟩
    exact ⟨_, _, hread, fun _ => rfl⟩
  cases o with
  | findById table id => exact ⟨_, _, h, fun _ => rfl⟩
  | save table operation document => exact hsaved h
  | insert table document => exact hsaved h
  | update table document => exact hsaved h
  | updateById table id document => exact hsaved h
  | find => exact ho.elim
  | findJson => exact ho.elim
  | search => exact ho.elim
  | invoke => exact ho.elim

variable {o : EntityOperation} {t : Table} {host : Host σ} {state : σ} {r : QueryResult}

/-- With one reply the first row is the answer. -/
theorem value_of_concernsRow (ho : o.ConcernsRow t) (hreply : o.call.replies host state = [.ok r])
    {row : List Cell} (hrow : r.rows = [row]) :
    (∀ d, Document.ofRow r row = .ok d →
      ∃ a, (Call.run host o.call state).value = .ok a ∧ a.single? = some d) ∧
    ∀ m, Document.ofRow r row = .error m →
      (Call.run host o.call state).value = .error (.malformed m) := by
  obtain ⟨plan, hfollows, hreads⟩ := o.exchanges
  have hout := hfollows.carriesOut host state
  cases hplan : plan (host.newId state).1 with
  | error refusal =>
    rw [hplan] at hout
    rw [hout.2.1] at hreply
    cases hreply
  | ok x =>
    rw [hplan] at hout
    obtain ⟨reply, -, hone, hvalue⟩ := hout
    rw [hone] at hreply
    cases hreply
    obtain ⟨missing, found, hread, hfound⟩ := readsFirst_of_concernsRow ho (hreads _ x hplan)
    rw [hvalue]
    exact ⟨fun d hd => ⟨_, hread.first hrow hd, hfound d⟩, fun m hm => hread.malformed hrow hm⟩

/-- A save or a lookup, answered with the row under the names of the table's
own columns, returns the document with the key of the row if and only if the
primary key is called `id`. Under every other name it reports a malformed
document after the statement was carried out. -/
theorem shows_key_iff (ho : o.ConcernsRow t) (hreply : o.call.replies host state = [.ok r])
    {key : Cell} {members : Json.Members} (hrow : r.IsRow t.primaryKey key members) :
    ((∃ a d, (Call.run host o.call state).value = .ok a ∧ a.single? = some d ∧
        d.id? = some key.toJson ∧
        ∀ name ≠ Document.idColumn, Entries.get? name d.members = Entries.get? name members) ↔
      t.primaryKey = Document.idColumn) ∧
    (t.primaryKey ≠ Document.idColumn →
      (Call.run host o.call state).value = .error (.malformed (.noColumn Document.idColumn))) := by
  have hother : t.primaryKey ≠ Document.idColumn →
      (Call.run host o.call state).value = .error (.malformed (.noColumn Document.idColumn)) := by
    intro hname
    obtain ⟨row, hrows, hmalformed⟩ := ofRow_of_key_named_otherwise hrow hname
    exact (value_of_concernsRow ho hreply hrows).2 _ hmalformed
  refine ⟨⟨?_, fun hname => ?_⟩, hother⟩
  · rintro ⟨a, d, hvalue, -⟩
    by_contra hname
    rw [hother hname] at hvalue
    cases hvalue
  · obtain ⟨row, hrows, hdocument⟩ := ofRow_of_key_named_id hrow hname
    obtain ⟨a, hvalue, hsingle⟩ := (value_of_concernsRow ho hreply hrows).1 _ hdocument
    exact ⟨a, _, hvalue, hsingle, Entries.get?_insert_self members _ _,
      fun name hne => Entries.get?_insert_of_ne hne.symm⟩

end EntityOperation

/-! ## Two names -/

/-- Answers every statement in the same way. -/
def Host.answering (r : QueryResult) : Host Unit where
  connect _ _ := (⟨some 0, .ok ()⟩, ())
  execute _ _ := (.ok r, ())
  newId _ := (.text "new", ())

def items (primaryKey : String) : Table := ⟨"public", "items", primaryKey, ⟨"public", 1000⟩⟩

def itemRow (primaryKey : String) : QueryResult :=
  ⟨[primaryKey, "body"], [[.text "A-1", .json (.obj [("name", .str "x")])]]⟩

theorem isRow_itemRow {primaryKey : String} (h : primaryKey ≠ "body") :
    (itemRow primaryKey).IsRow primaryKey (.text "A-1") [("name", .str "x")] := by
  refine ⟨_, .json (.obj [("name", .str "x")]), rfl, by simp [itemRow, Document.bodyColumn], ?_, ?_,
    rfl⟩
  · simp [itemRow, QueryResult.cell?, QueryResult.columnIndex?, List.findIdx?_cons]
  · simp [itemRow, QueryResult.cell?, QueryResult.columnIndex?, List.findIdx?_cons,
      Document.bodyColumn, h]

/-- An update of a stored id, in a table whose key is called `id`. -/
theorem EntityOperation.shows_key_iff_items :
    let o := EntityOperation.update (items "id") (.obj [("id", .str "A-1"), ("name", .str "x")])
    o.ConcernsRow (items "id") ∧
    o.call.replies (Host.answering (itemRow "id")) () = [.ok (itemRow "id")] ∧
    (itemRow "id").IsRow "id" (.text "A-1") [("name", .str "x")] ∧
    ∃ a d, (Call.run (Host.answering (itemRow "id")) o.call ()).value = .ok a ∧
      a.single? = some d ∧ d.id? = some (.str "A-1") := by
  intro o
  have hreply : o.call.replies (Host.answering (itemRow "id")) () = [.ok (itemRow "id")] := rfl
  have hrow : (itemRow "id").IsRow "id" (.text "A-1") [("name", .str "x")] :=
    isRow_itemRow (by decide)
  refine ⟨rfl, hreply, hrow, ?_⟩
  obtain ⟨a, d, hvalue, hsingle, hid, -⟩ :=
    (EntityOperation.shows_key_iff (o := o) (t := items "id") rfl hreply hrow).1.mpr rfl
  exact ⟨a, d, hvalue, hsingle, hid⟩

/-- The key of the table is called `sku`. The insertion is carried out, and the
stored row that comes back is reported as malformed. -/
theorem EntityOperation.stored_row_malformed :
    let o := EntityOperation.insert (items "sku") (.obj [("name", .str "x"), ("sku", .str "A-1")])
    (itemRow "sku").IsRow "sku" (.text "A-1") [("name", .str "x")] ∧
    (Call.run (Host.answering (itemRow "sku")) o.call ()).sent =
      [(items "sku").insertion (.text "A-1") [("name", .str "x")]] ∧
    o.call.replies (Host.answering (itemRow "sku")) () = [.ok (itemRow "sku")] ∧
    (Call.run (Host.answering (itemRow "sku")) o.call ()).value =
      .error (.malformed (.noColumn "id")) :=
  ⟨isRow_itemRow (by decide), rfl, rfl, rfl⟩

end DocStore
