import DocStore.Proofs.Memory.Statement
import DocStore.Proofs.Text.Integer

/-!
# Searches as the store reads them

A search with default options is one `select`: the name of the table, the
clause if there is one, and the order and the page. The store takes the
clause out of this text again and knows three kinds: none, the one of a
look-up by id, and the comparison of the text of a field. A field is
found by its name if that has no blank and no single quote.

Main statements: `execute_find`, `clause?_all`, `clause?_lookup`,
`clause?_field`.
-/

namespace DocStore.Memory

/-! ## The text of a search -/

/-- What follows the clause of a search with default options. -/
def page (t : Table) : List Char :=
  " order by \"id\" limit ".toList ++ (Nat.toDigits 10 t.settings.findLimit ++ " offset 0".toList)

theorem mem_page {c : Char} {t : Table} :
    c ∈ page t ↔ c ∈ " order by \"id\" limit ".toList ∨
      c ∈ Nat.toDigits 10 t.settings.findLimit ∨ c ∈ " offset 0".toList := by
  unfold page
  rw [List.mem_append, List.mem_append]

theorem not_mem_page {c : Char} (hdigit : c.isDigit = false) (t : Table)
    (horder : c ∉ " order by \"id\" limit ".toList) (hoffset : c ∉ " offset 0".toList) :
    c ∉ page t := by
  have hdigits : c ∉ Nat.toDigits 10 t.settings.findLimit := by
    intro h
    rw [Chars.isDigit_toDigits _ c h] at hdigit
    cases hdigit
  intro h
  rcases mem_page.mp h with h | h | h
  · exact absurd h horder
  · exact hdigits h
  · exact hoffset h

section Text

variable {t : Table} (ht : t.IsDocuments)
include ht

theorem findSql_eq (p : Predicate) :
    (t.findSql p {}).chars =
      "select * from ".toList ++ (t.storedName.toList ++ (p.whereSql.chars ++ page t)) := by
  have horder : t.orderSql none = [.name "id"] := by
    rw [Table.orderSql, ht.primaryKey]
  have hlimit : (Sql.Piece.text s!" limit {t.settings.findLimit}").chars =
      " limit ".toList ++ Nat.toDigits 10 t.settings.findLimit := by
    show (s!" limit {t.settings.findLimit}").toList = _
    rw [String.toList_append]
    exact congrArg _ String.toList_ofList
  show Sql.chars (.text "select " :: [.text "*"] ++ .text " from " :: t.sqlName ++ p.whereSql ++
    .text " order by " :: t.orderSql none ++ [.text s!" limit {t.settings.findLimit}",
      .text " offset 0"]) = _
  rw [horder]
  simp only [List.cons_append, List.append_assoc, Sql.chars_cons, Sql.chars_append,
    chars_sqlName ht, hlimit]
  rfl

/-- Without a clause the text has no `where`. -/
theorem clause?_all : clause? (.ofList (t.storedName.toList ++ page t)) = none := by
  have hpage : Chars.cut? " where ".toList (page t) = none :=
    Chars.cut?_eq_none_of_not_mem (c := 'w') (by decide)
      (not_mem_page (by decide) t (by decide) (by decide))
  have hcut : Chars.cut? " where ".toList (t.storedName.toList ++ page t) = none := by
    show Chars.cut? (' ' :: "where ".toList) _ = none
    rw [Chars.cut?_append_of_not_mem _ (space_not_mem ht)]
    show (Chars.cut? " where ".toList (page t)).map _ = none
    rw [hpage]
    rfl
  have htext : (String.ofList (t.storedName.toList ++ page t)).toList =
      t.storedName.toList ++ page t := String.toList_ofList
  rw [clause?, Text.cut?, htext, hcut]
  rfl

/-- A clause is found up to the first `order by`. -/
theorem clause?_where {clause rest : List Char}
    (h : Chars.cut? " order by ".toList (clause ++ page t) = some (clause, rest)) :
    clause? (.ofList (t.storedName.toList ++ (" where ".toList ++ (clause ++ page t)))) =
      some (.ofList clause) := by
  have hwhere : Chars.cut? " where ".toList (t.storedName.toList ++
      (" where ".toList ++ (clause ++ page t))) = some (t.storedName.toList, clause ++ page t) :=
    Chars.cut?_first (space_not_mem ht) _
  rw [clause?, cut?_ofList hwhere, Option.map_some]
  dsimp only
  rw [cut?_ofList h]

/-- A search answers with the rows that its clause selects, and changes nothing. -/
theorem execute_find {m : Memory} (hfail : m.failure = none) {rows : Rows}
    (hrows : m.tables.get? t.storedName = some rows) {p : Predicate} {clause : Option String}
    (hclause : clause? (.ofList (t.storedName.toList ++ (p.whereSql.chars ++ page t))) = clause)
    {found : Rows} (hfound : selectRows rows clause p.params = .ok found) (single : Bool) :
    m.execute (.ofSql (t.findSql p {}) p.params single) = (.ok (documentRows found), m) := by
  have hsql : (t.findSql p {}).render = .ofList ("select * from ".toList ++
      (t.storedName.toList ++ (p.whereSql.chars ++ page t))) := by
    rw [Sql.render, findSql_eq ht]
  have hword : Text.firstWord (.ofList (t.storedName.toList ++ (p.whereSql.chars ++ page t))) =
      t.storedName := by
    obtain ⟨s, hs⟩ : ∃ s, p.whereSql.chars ++ page t = ' ' :: s := by
      unfold Predicate.whereSql
      split <;> exact ⟨_, rfl⟩
    rw [hs]
    exact firstWord_storedName ht s
  have hrun : m.runStatement (t.findSql p {}).render p.params = .ok (documentRows found, m) := by
    rw [hsql, runStatement, form_select]
    show (m.runSelect _ p.params).map (·, m) = _
    rw [runSelect, hword, relation, hrows, hclause]
    show ((selectRows rows clause p.params >>= _).map (·, m)) = _
    rw [hfound]
    rfl
  rw [execute_eq hfail]
  · show m.settled (m.runStatement (t.findSql p {}).render p.params) = _
    rw [hrun]
    rfl
  · show ¬ IsCatalog (t.findSql p {}).render
    rw [hsql]
    exact not_isCatalog (c := 's') rfl (by decide) fun _ => ⟨'*', rfl, by decide⟩

end Text

theorem whereSql_of_clause {p : Predicate} {c : Char} {s : List Char}
    (h : p.clause.chars = c :: s) :
    p.whereSql = .text " where " :: p.clause := by
  have hclause : p.isMatchAll = false := by
    rw [Predicate.isMatchAll, decide_eq_false_iff_not]
    intro htext
    have hchars := congrArg String.toList htext
    rw [Predicate.clauseText, Sql.render, String.toList_ofList, h] at hchars
    cases hchars
  rw [Predicate.whereSql, hclause]
  rfl

/-! ## Looking up an id -/

/-- The predicate of a look-up by primary key. -/
def lookupPredicate (id : Cell) : Predicate where
  clause := [.name "id", .text " = ", .placeholder 1]
  params := [id]
  lookup := true
  target := .column

theorem compile_byId {id : Cell} {text : String} (h : id.idText? = some text) :
    (Condition.byId id).compile "id" = .ok (lookupPredicate id) := by
  cases id with
  | text s => rfl
  | int i => rfl
  | _ => cases h

section Lookup

variable {t : Table} (ht : t.IsDocuments)
include ht

theorem clause?_lookup (id : Cell) :
    clause? (.ofList (t.storedName.toList ++ ((lookupPredicate id).whereSql.chars ++ page t))) =
      some "\"id\" = $1" := by
  have hclause : (lookupPredicate id).clause.chars = "\"id\" = $1".toList := rfl
  rw [whereSql_of_clause hclause, Sql.chars_cons, hclause, List.append_assoc]
  exact (@clause?_where t ht "\"id\" = $1".toList _ rfl).trans rfl

theorem execute_lookup {m : Memory} (hfail : m.failure = none) {rows : Rows}
    (hrows : m.tables.get? t.storedName = some rows) {id : Cell} {text : String}
    (hid : id.idText? = some text) :
    m.execute (.ofSql (t.findSql (lookupPredicate id) {}) [id] true) =
      (.ok (documentRows ((rows.get? text).toList.map fun body => (text, body))), m) := by
  have hselect : selectRows rows (some "\"id\" = $1") [id] =
      .ok ((rows.get? text).toList.map fun body => (text, body)) := by
    show (textParam [id] 0 >>= fun text => _) = _
    rw [textParam_zero, hid]
    rfl
  exact execute_find (p := lookupPredicate id) ht hfail hrows (clause?_lookup ht id) hselect true

end Lookup

/-! ## Comparing a field -/

/-- The predicate of a comparison of a field with a text. -/
def fieldPredicate (key value : String) : Predicate :=
  (Route.body [.holds (.field [key] true) .eq (.text value) false]).predicate

theorem chars_fieldPredicate {key : String} (hkey : '\'' ∉ key.toList) (value : String) :
    (fieldPredicate key value).clause.chars =
      "(body ->> '".toList ++ (key.toList ++ "') = $1".toList) := by
  have hclause : (fieldPredicate key value).clause =
      [.text "(body", .text " ->> ", .literal key, .text ")", .text " = ", .placeholder 1] := rfl
  rw [hclause]
  simp only [Sql.chars_cons, Sql.Piece.chars, Sql.doubled_eq_self hkey]
  simp only [List.append_assoc]
  rfl

theorem textField?_field (key : String) :
    textField? (.ofList ("(body ->> '".toList ++ (key.toList ++ "') = $1".toList))) = some key := by
  have htext : (String.ofList ("(body ->> '".toList ++ (key.toList ++ "') = $1".toList))).toList =
      "(body ->> '".toList ++ (key.toList ++ "') = $1".toList) := String.toList_ofList
  rw [textField?, htext, Chars.strip?_append]
  show (Chars.stripEnd? _ _).bind _ = _
  rw [Chars.stripEnd?_append]
  exact congrArg some String.ofList_toList

/-- A key without blanks does not hold the beginning of the order. -/
theorem cut?_field {key : List Char} (hkey : ' ' ∉ key) (s : List Char) :
    Chars.cut? " order by ".toList
      ("(body ->> '".toList ++ (key ++ "') = $1".toList) ++ (" order by ".toList ++ s)) =
        some ("(body ->> '".toList ++ (key ++ "') = $1".toList), s) := by
  have hend : Chars.cut? " order by ".toList
      (" = $1".toList ++ (" order by ".toList ++ s)) = some (" = $1".toList, s) := rfl
  have hword : ' ' ∉ '\'' :: (key ++ ['\'', ')']) := by
    simp [hkey]
  -- the other blanks are not followed by the second character of the separator
  have hquote : ∀ r, Chars.strip? " order by ".toList (' ' :: '\'' :: r) = none := fun _ => rfl
  have harrow : ∀ r, Chars.strip? " order by ".toList (' ' :: '-' :: r) = none := fun _ => rfl
  have hfield := Chars.cut?_cons (hquote _) (Chars.cut?_append "order by ".toList hword hend)
  have hcolumn := Chars.cut?_cons (harrow _)
    (Chars.cut?_append (a := ['-', '>', '>']) "order by ".toList (by decide) hfield)
  have hclause : Chars.cut? " order by ".toList _ = _ :=
    Chars.cut?_append (a := ['(', 'b', 'o', 'd', 'y']) "order by ".toList (by decide) hcolumn
  simpa using hclause

theorem clause?_field {t : Table} (ht : t.IsDocuments) {key : String} (hblank : ' ' ∉ key.toList)
    (hquote : '\'' ∉ key.toList) (value : String) :
    clause? (.ofList (t.storedName.toList ++
      ((fieldPredicate key value).whereSql.chars ++ page t))) =
        some (.ofList ("(body ->> '".toList ++ (key.toList ++ "') = $1".toList))) := by
  have hchars := chars_fieldPredicate hquote value
  rw [whereSql_of_clause hchars, Sql.chars_cons, hchars, List.append_assoc]
  exact clause?_where ht (cut?_field hblank _)

/-- The clause selects the rows that have the text in the field. -/
theorem selectRows_field (rows : Rows) (key value : String) :
    selectRows rows (some (.ofList ("(body ->> '".toList ++ (key.toList ++ "') = $1".toList))))
      [.text value] =
        .ok (rows.filter fun row => (row.2.member? key).bind Json.text? == some value) := by
  have hother : ¬ String.ofList ("(body ->> '".toList ++ (key.toList ++ "') = $1".toList)) =
      "\"id\" = $1" := by
    intro h
    have hchars := congrArg String.toList h
    rw [String.toList_ofList] at hchars
    cases hchars
  rw [selectRows, if_neg hother, textField?_field]
  rfl

end DocStore.Memory
