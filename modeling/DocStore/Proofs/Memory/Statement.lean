import DocStore.Database.Collection
import DocStore.Memory.Execute
import DocStore.Proofs.Memory.Name
import DocStore.Table.Find
import DocStore.Table.Save

/-!
# Statements as the store reads them

The store works on the text of a statement. For a table of documents
every part of that text is found again where it was put: the beginning
tells the form, the first word is the name of the table, and the
expression of an update is what stands between ` set body = ` and the
last ` where `, whatever it holds.

A query of the catalog is told by its beginning as well; no statement on
a table of documents is one.
-/

namespace DocStore.Memory

/-! ## Forms -/

theorem strip?_ofList (pre : String) (s : List Char) :
    Text.strip? pre (.ofList s) = (Chars.strip? pre.toList s).map .ofList := by
  rw [Text.strip?, String.toList_ofList]

theorem cut?_ofList {sep : String} {s a b : List Char} (h : Chars.cut? sep.toList s = some (a, b)) :
    Text.cut? sep (.ofList s) = some (.ofList a, .ofList b) := by
  rw [Text.cut?, String.toList_ofList, h]
  rfl

theorem cutLast?_ofList {sep : String} {s a b : List Char}
    (h : Chars.cutLast? sep.toList s = some (a, b)) :
    Text.cutLast? sep (.ofList s) = some (.ofList a, .ofList b) := by
  rw [Text.cutLast?, String.toList_ofList, h]
  rfl

theorem form_schema (rest : List Char) :
    Form.of (.ofList ("create schema".toList ++ rest)) = .ignored := by
  simp only [Form.of, strip?_ofList]
  rfl

theorem form_index (rest : List Char) :
    Form.of (.ofList ("create index".toList ++ rest)) = .ignored := by
  simp only [Form.of, strip?_ofList]
  rfl

theorem form_createTable (rest : List Char) :
    Form.of (.ofList ("create table if not exists ".toList ++ rest)) =
      .createTable (.ofList rest) := by
  simp only [Form.of, strip?_ofList]
  rfl

theorem form_insert (rest : List Char) :
    Form.of (.ofList ("insert into ".toList ++ rest)) = .insert (.ofList rest) := by
  simp only [Form.of, strip?_ofList]
  rfl

theorem form_update (rest : List Char) :
    Form.of (.ofList ("update ".toList ++ rest)) = .update (.ofList rest) := by
  simp only [Form.of, strip?_ofList]
  rfl

theorem form_select (rest : List Char) :
    Form.of (.ofList ("select * from ".toList ++ rest)) = .select (.ofList rest) := by
  simp only [Form.of, strip?_ofList]
  rfl

/-- Nothing but a search begins like one. -/
theorem form_s (rest : List Char) :
    (∃ r, Form.of (.ofList ('s' :: rest)) = .select r) ∨
      Form.of (.ofList ('s' :: rest)) = .other := by
  simp only [Form.of, strip?_ofList]
  cases Chars.strip? "select * from ".toList ('s' :: rest) with
  | none => exact .inr rfl
  | some r => exact .inl ⟨_, rfl⟩

/-! ## Queries of the catalog -/

/-- One of the queries that list tables and functions. -/
def IsCatalog (sql : String) : Prop :=
  sql = Catalog.tablesSql ∨ sql = Catalog.whitelistSql ∨ sql = Catalog.functionsSql

set_option maxRecDepth 20000 in
theorem tablesSql_eq : ∃ rest, Catalog.tablesSql = .ofList ('-' :: rest) := ⟨_, rfl⟩

set_option maxRecDepth 20000 in
theorem whitelistSql_eq : ∃ rest, Catalog.whitelistSql = .ofList ('-' :: rest) := ⟨_, rfl⟩

set_option maxRecDepth 20000 in
theorem functionsSql_eq : ∃ rest, Catalog.functionsSql = .ofList ("select n".toList ++ rest) :=
  ⟨_, rfl⟩

/-- A statement is told from the queries by its first character, and a search
by its eighth. -/
theorem not_isCatalog {s : List Char} {c : Char} (h : s.head? = some c) (hc : c ≠ '-')
    (hs : c = 's' → ∃ d, s[7]? = some d ∧ d ≠ 'n') : ¬ IsCatalog (.ofList s) := by
  rintro (heq | heq | heq)
  · obtain ⟨rest, hrest⟩ := tablesSql_eq
    rw [String.ofList_injective (heq.trans hrest)] at h
    exact hc (Option.some.inj h).symm
  · obtain ⟨rest, hrest⟩ := whitelistSql_eq
    rw [String.ofList_injective (heq.trans hrest)] at h
    exact hc (Option.some.inj h).symm
  · obtain ⟨rest, hrest⟩ := functionsSql_eq
    have htext := String.ofList_injective (heq.trans hrest)
    rw [htext] at h
    obtain ⟨d, hd, hne⟩ := hs (Option.some.inj h).symm
    rw [htext] at hd
    exact hne (Option.some.inj hd).symm

theorem body?_of_rows {m : Memory} {table : String} {rows : Rows}
    (h : m.tables.get? table = some rows) (id : String) : m.body? table id = rows.get? id := by
  rw [body?, h, Option.bind_some]

/-- The answer and the store after a statement; a failure leaves the store. -/
def settled (m : Memory) :
    Except DbError (QueryResult × Memory) → Except DbError QueryResult × Memory
  | .ok (reply, m') => (.ok reply, m')
  | .error e => (.error e, m)

theorem execute_eq {m : Memory} (hfail : m.failure = none) {statement : Statement}
    (h : ¬ IsCatalog statement.sql) :
    m.execute statement = m.settled (m.runStatement statement.sql statement.params) := by
  simp only [IsCatalog, not_or] at h
  unfold execute
  simp only [h.1, h.2.1, h.2.2, hfail, decide_false, Bool.or_false, if_false, Bool.false_eq_true]
  rfl

/-- A store that is set to fail changes nothing. -/
theorem execute_of_failure {m : Memory} {message : String} (hfail : m.failure = some message)
    {statement : Statement} (h : ¬ IsCatalog statement.sql) :
    m.execute statement = (.error (.reported .execution message), m) := by
  simp only [IsCatalog, not_or] at h
  unfold execute
  simp only [h.1, h.2.1, h.2.2, hfail, decide_false, Bool.or_false, if_false, Bool.false_eq_true]

/-- The first character often tells that a statement is no query. -/
theorem execute_eq_of_head {m : Memory} (hfail : m.failure = none) {statement : Statement}
    {c : Char} {rest : List Char} (h : statement.sql = .ofList (c :: rest)) (hc : c ≠ '-')
    (hs : c ≠ 's') :
    m.execute statement = m.settled (m.runStatement statement.sql statement.params) := by
  apply execute_eq hfail
  rw [h]
  exact not_isCatalog rfl hc fun heq => absurd heq hs

theorem runStatement_search {m m' : Memory} {rest : List Char} {params : List Cell}
    {reply : QueryResult} (h : m.runStatement (.ofList ('s' :: rest)) params = .ok (reply, m')) :
    m' = m := by
  unfold runStatement at h
  rcases form_s rest with ⟨r, hform⟩ | hform
  · rw [hform] at h
    cases hselect : m.runSelect r params with
    | error e => simp [hselect, Except.map] at h
    | ok reply' =>
      simp only [hselect, Except.map, Except.ok.injEq, Prod.mk.injEq] at h
      exact h.2.symm
  · rw [hform] at h
    cases h

/-- A search changes nothing. -/
theorem execute_search (m : Memory) {statement : Statement} {rest : List Char}
    (h : statement.sql = .ofList ('s' :: rest)) : (m.execute statement).2 = m := by
  unfold execute
  rw [h]
  split
  · rfl
  · split
    · rfl
    · cases m.failure with
      | some message => rfl
      | none =>
        cases hrun : m.runStatement (.ofList ('s' :: rest)) statement.params with
        | error e => rfl
        | ok r =>
          obtain ⟨reply, m'⟩ := r
          exact runStatement_search hrun

/-! ## Tables of documents -/

section Documents

variable {t : Table} (ht : t.IsDocuments)
include ht

theorem chars_sqlName : t.sqlName.chars = t.storedName.toList := by
  rw [Table.sqlName, ht.defaultSchema]
  exact chars_qualified ht.schema ht.name

/-- The name of the table is read as the first word. -/
theorem firstWord_storedName (s : List Char) :
    Text.firstWord (.ofList (t.storedName.toList ++ ' ' :: s)) = t.storedName := by
  obtain ⟨rest, hrest⟩ := storedName_eq_cons t.schema t.name
  have hne : t.storedName.toList ≠ [] := by
    rw [Table.storedName, hrest]
    exact List.cons_ne_nil _ _
  rw [Text.firstWord, String.toList_ofList,
    Chars.firstWord_append hne (isBlank_storedName ht.schema ht.name) (by decide),
    String.ofList_toList]

theorem space_not_mem : ' ' ∉ t.storedName.toList := by
  intro hmem
  have hblank := isBlank_storedName ht.schema ht.name ' ' hmem
  revert hblank
  decide

theorem insertSql_eq :
    t.insertSql.chars =
      "insert into ".toList ++ (t.storedName.toList ++
        " (\"id\", body) values ($1, $2) returning *".toList) := by
  rw [Table.insertSql, ht.primaryKey]
  simp only [List.cons_append, Sql.chars_cons, Sql.chars_append, chars_sqlName ht]
  rfl

theorem updateSql_eq (body : Sql) :
    (Patch.updateSql t.sqlName t.primaryKey body).chars =
      "update ".toList ++ (t.storedName.toList ++ (" set body = ".toList ++
        (body.chars ++ " where \"id\" = $1 returning *".toList))) := by
  rw [Patch.updateSql, ht.primaryKey]
  simp only [List.cons_append, List.append_assoc, Sql.chars_cons, Sql.chars_append,
    chars_sqlName ht]
  rfl

/-! ## The parts of an update -/

theorem cut?_updateSql (body : Sql) :
    Chars.cut? " set body = ".toList (Patch.updateSql t.sqlName t.primaryKey body).chars =
      some ("update ".toList ++ t.storedName.toList,
        body.chars ++ " where \"id\" = $1 returning *".toList) := by
  obtain ⟨rest, hrest⟩ := storedName_eq_cons t.schema t.name
  have hname : t.storedName.toList = '"' :: rest := hrest
  have htable : ∀ s, Chars.cut? " set body = ".toList
      ('"' :: rest ++ (" set body = ".toList ++ s)) = some (t.storedName.toList, s) := by
    intro s
    rw [← hname]
    exact Chars.cut?_first (space_not_mem ht) s
  -- the blank after the first word is not followed by `set`
  have hblank : ∀ s, Chars.cut? " set body = ".toList (' ' :: '"' :: s) =
      (Chars.cut? " set body = ".toList ('"' :: s)).map (Prod.map (List.cons ' ') id) :=
    fun s => rfl
  have hupdate : ∀ s, Chars.cut? " set body = ".toList ("update".toList ++ s) =
      (Chars.cut? " set body = ".toList s).map (Prod.map ("update".toList ++ ·) id) :=
    Chars.cut?_append_of_not_mem "set body = ".toList (by decide)
  rw [updateSql_eq ht, hname]
  show Chars.cut? _ ("update".toList ++ (' ' :: '"' :: (rest ++ _))) = _
  rw [hupdate, hblank, ← List.cons_append, htable, hname]
  rfl

/-- The expression of an update is found, whatever it holds. -/
theorem assigned?_update (body : Sql) :
    assigned? (Patch.updateSql t.sqlName t.primaryKey body).render = some body.render := by
  have htail : Chars.cutLast? " where ".toList " where \"id\" = $1 returning *".toList =
      some ([], "\"id\" = $1 returning *".toList) := rfl
  have hlast := Chars.cutLast?_append body.chars htail
  rw [List.append_nil] at hlast
  rw [assigned?, Sql.render, cut?_ofList (cut?_updateSql ht body)]
  show (Text.cutLast? " where " (.ofList _)).bind _ = _
  rw [cutLast?_ofList hlast]
  rfl

/-- An update that assigns the second parameter is told by its text. -/
theorem replacesBody_placeholder :
    replacesBody (Patch.updateSql t.sqlName t.primaryKey [.placeholder 2]).render = true := by
  have htext : ∃ a b, (Patch.updateSql t.sqlName t.primaryKey [.placeholder 2]).chars =
      a ++ ("set body = $2 where".toList ++ b) := by
    refine ⟨"update ".toList ++ t.storedName.toList ++ [' '], " \"id\" = $1 returning *".toList, ?_⟩
    rw [updateSql_eq ht, List.append_assoc, List.append_assoc]
    rfl
  obtain ⟨a, b, htext⟩ := htext
  obtain ⟨⟨before, after⟩, hcut⟩ :=
    Option.isSome_iff_exists.mp (Chars.isSome_cut? "set body = $2 where".toList a b)
  rw [replacesBody, Sql.render, htext, cut?_ofList hcut]
  rfl

/-! ## Carrying them out -/

end Documents

theorem textParam_zero (id : Cell) (rest : List Cell) :
    textParam (id :: rest) 0 =
      match id.idText? with
      | some text => .ok text
      | none => fail (.wrongParameter 1) := by
  cases id <;> rfl

theorem jsonParam_one_text (id : Cell) (s : String) (rest : List Cell) :
    jsonParam (id :: .text s :: rest) 1 =
      match Json.read? s with
      | some j => .ok j
      | none => .error (.malformed .notJson) := rfl

section Execution

variable {t : Table} (ht : t.IsDocuments) {m : Memory} (hfail : m.failure = none) {rows : Rows}
  (hrows : m.tables.get? t.storedName = some rows)
include ht hfail hrows

theorem execute_insertion (id : Cell) (body : Json.Members) :
    m.execute (t.insertion id body) =
      match id.idText? with
      | none => (fail (.wrongParameter 1), m)
      | some text =>
        match rows.get? text with
        | some _ => (fail (.duplicateKey text), m)
        | none =>
          (.ok (documentRows [(text, .obj body)]),
            m.store t.storedName (rows.insert text (.obj body))) := by
  have hsql : (t.insertion id body).sql =
      .ofList ("insert into ".toList ++ (t.storedName.toList ++
        " (\"id\", body) values ($1, $2) returning *".toList)) := by
    rw [← insertSql_eq ht]
    rfl
  have hword : Text.firstWord (.ofList (t.storedName.toList ++
      " (\"id\", body) values ($1, $2) returning *".toList)) = t.storedName :=
    firstWord_storedName ht _
  rw [execute_eq_of_head hfail hsql (by decide) (by decide), runStatement, hsql, form_insert]
  show m.settled (m.runInsert _ [id, .json (.obj body)]) = _
  rw [runInsert, hword, relation, hrows]
  show m.settled (textParam [id, .json (.obj body)] 0 >>= _) = _
  rw [textParam_zero]
  cases id.idText? with
  | none => rfl
  | some text =>
    show m.settled (if rows.contains text then fail (.duplicateKey text) else _) = _
    rw [Entries.contains]
    dsimp only
    cases rows.get? text with
    | some current => rfl
    | none => rfl

theorem execute_updateSql (body : Sql) (id : Cell) (rest : List Cell) (single : Bool) :
    m.execute (.ofSql (Patch.updateSql t.sqlName t.primaryKey body) (id :: rest) single) =
      match id.idText? with
      | none => (fail (.wrongParameter 1), m)
      | some text =>
        match rows.get? text with
        | none => (.ok (documentRows []), m)
        | some current =>
          match updatedBody (Patch.updateSql t.sqlName t.primaryKey body).render current
            (id :: rest) with
          | .ok new =>
            (.ok (documentRows [(text, new)]), m.store t.storedName (rows.insert text new))
          | .error e => (.error e, m) := by
  have hsql : (Patch.updateSql t.sqlName t.primaryKey body).render =
      .ofList ("update ".toList ++ (t.storedName.toList ++ (" set body = ".toList ++
        (body.chars ++ " where \"id\" = $1 returning *".toList)))) := by
    rw [Sql.render, updateSql_eq ht]
  have hword : Text.firstWord (.ofList (t.storedName.toList ++ (" set body = ".toList ++
      (body.chars ++ " where \"id\" = $1 returning *".toList)))) = t.storedName :=
    firstWord_storedName ht _
  have hrun : m.runStatement (Patch.updateSql t.sqlName t.primaryKey body).render (id :: rest) =
      m.runUpdate (Patch.updateSql t.sqlName t.primaryKey body).render
        (.ofList (t.storedName.toList ++ (" set body = ".toList ++
          (body.chars ++ " where \"id\" = $1 returning *".toList)))) (id :: rest) := by
    rw [runStatement, hsql, form_update]
  rw [execute_eq_of_head hfail hsql (by decide) (by decide)]
  show m.settled (m.runStatement (Patch.updateSql t.sqlName t.primaryKey body).render
    (id :: rest)) = _
  rw [hrun, runUpdate, hword, relation, hrows]
  show m.settled (textParam (id :: rest) 0 >>= _) = _
  rw [textParam_zero]
  cases id.idText? with
  | none => rfl
  | some text =>
    show m.settled (match rows.get? text with
      | none => return (documentRows [], m)
      | some current => do
        let new ← updatedBody _ current (id :: rest)
        return (documentRows [(text, new)], m.store t.storedName (rows.insert text new))) = _
    dsimp only
    cases rows.get? text with
    | none => rfl
    | some current =>
      dsimp only
      cases updatedBody _ current (id :: rest) with
      | ok new => rfl
      | error e => rfl

end Execution

end DocStore.Memory
