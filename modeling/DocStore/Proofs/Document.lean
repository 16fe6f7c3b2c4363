import DocStore.Document
import DocStore.Proofs.Entries
import DocStore.Proofs.Except

/-!
# Rows as documents

A row is a document if it has an id and a body, each under the first
column of its name, and the body is an object or the text of one
(`RowHolds`). Every other row has one fault, the first that is found in
it (`Faulty`). Both are said of the columns and the row alone, so no row
changes what another one is read as; of several faulty rows the first is
reported.

Whether a body is kept as JSON or as its text makes no difference
(`Reencodes`), for no other cell than the body is looked into.

Main statement: `readsRows`.
-/

namespace DocStore

/-! ## Cells by name -/

/-- The cell stands in the row under the first column of the name. -/
def HasCell (columns : List String) (row : List Cell) (name : String) (cell : Cell) : Prop :=
  ∃ before after, columns = before ++ name :: after ∧ name ∉ before ∧
    row[before.length]? = some cell

namespace QueryResult

variable {r : QueryResult}

theorem columnIndex?_eq_some_iff {name : String} {i : Nat} :
    r.columnIndex? name = some i ↔
      ∃ before after, r.columns = before ++ name :: after ∧ name ∉ before ∧ before.length = i := by
  unfold columnIndex?
  generalize r.columns = columns
  induction columns generalizing i with
  | nil => simp
  | cons column columns ih =>
    rw [List.findIdx?_cons]
    by_cases hname : column = name
    · rw [if_pos (beq_iff_eq.mpr hname)]
      constructor
      · rintro ⟨⟩
        exact ⟨[], columns, by rw [hname, List.nil_append], List.not_mem_nil, rfl⟩
      · rintro ⟨before, after, hcolumns, hbefore, rfl⟩
        cases before with
        | nil => rfl
        | cons first before =>
          cases hcolumns
          exact absurd (hname ▸ List.mem_cons_self) hbefore
    · rw [if_neg (mt beq_iff_eq.mp hname), Option.map_eq_some_iff]
      constructor
      · rintro ⟨j, hj, rfl⟩
        obtain ⟨before, after, rfl, hbefore, rfl⟩ := ih.mp hj
        exact ⟨column :: before, after, rfl, List.not_mem_cons_of_ne_of_not_mem (Ne.symm hname)
          hbefore, rfl⟩
      · rintro ⟨before, after, hcolumns, hbefore, rfl⟩
        cases before with
        | nil =>
          cases hcolumns
          exact absurd rfl hname
        | cons first before =>
          cases hcolumns
          exact ⟨_, ih.mpr ⟨before, after, rfl, List.not_mem_of_not_mem_cons hbefore, rfl⟩, rfl⟩

theorem cell?_eq_some_iff {row : List Cell} {name : String} {cell : Cell} :
    r.cell? row name = some cell ↔ HasCell r.columns row name cell := by
  rw [cell?, Option.bind_eq_some_iff]
  constructor
  · rintro ⟨i, hi, hcell⟩
    obtain ⟨before, after, hcolumns, hbefore, rfl⟩ := columnIndex?_eq_some_iff.mp hi
    exact ⟨before, after, hcolumns, hbefore, hcell⟩
  · rintro ⟨before, after, hcolumns, hbefore, hcell⟩
    exact ⟨_, columnIndex?_eq_some_iff.mpr ⟨before, after, hcolumns, hbefore, rfl⟩, hcell⟩

theorem cell?_eq_none_iff {row : List Cell} {name : String} :
    r.cell? row name = none ↔ ∀ cell, ¬ HasCell r.columns row name cell := by
  rw [Option.eq_none_iff_forall_ne_some]
  exact forall_congr' fun cell => not_congr cell?_eq_some_iff

end QueryResult

/-! ## Bodies -/

/-- The cell is an object with the members, or the text of one. -/
inductive Cell.IsBody : Cell → Json.Members → Prop
  | json (members : Json.Members) : IsBody (.json (.obj members)) members
  | text {s : String} {members : Json.Members} (h : Json.read? s = some (.obj members)) :
    IsBody (.text s) members

/-- Why a cell is no body. -/
inductive Cell.BadBody : Cell → Malformation → Prop
  | notJson {s : String} (h : Json.read? s = none) : BadBody (.text s) .notJson
  | textOf {s : String} {j : Json} (h : Json.read? s = some j) (hj : j.members? = none) :
    BadBody (.text s) (.bodyNotAnObject j)
  | json {j : Json} (hj : j.members? = none) : BadBody (.json j) (.bodyNotAnObject j)
  | otherType {cell : Cell} (htext : ∀ s, cell ≠ .text s) (hjson : ∀ j, cell ≠ .json j) :
    BadBody cell (.bodyType cell.typeName)

namespace Document

theorem bodyMembers_json (j : Json) :
    bodyMembers (.json j) =
      match j.members? with
      | some members => .ok members
      | none => .error (.bodyNotAnObject j) := by
  cases j <;> rfl

/-- A text that is JSON counts as that JSON. -/
theorem bodyMembers_text {s : String} {j : Json} (h : Json.read? s = some j) :
    bodyMembers (.text s) = bodyMembers (.json j) := by
  simp only [bodyMembers, bodyValue, h]

theorem bodyMembers_text_of_none {s : String} (h : Json.read? s = none) :
    bodyMembers (.text s) = .error .notJson := by
  simp only [bodyMembers, bodyValue, h]
  rfl

theorem bodyMembers_of_isBody {cell : Cell} {members : Json.Members} (h : cell.IsBody members) :
    bodyMembers cell = .ok members := by
  cases h with
  | json => rfl
  | text h => rw [bodyMembers_text h, bodyMembers_json]; rfl

theorem bodyMembers_of_badBody {cell : Cell} {m : Malformation} (h : cell.BadBody m) :
    bodyMembers cell = .error m := by
  cases h with
  | notJson h => exact bodyMembers_text_of_none h
  | textOf h hj => rw [bodyMembers_text h, bodyMembers_json, hj]
  | json hj => rw [bodyMembers_json, hj]
  | otherType htext hjson =>
    cases cell with
    | text s => exact absurd rfl (htext s)
    | json j => exact absurd rfl (hjson j)
    | _ => rfl

/-- A cell is a body with some members, or there is a reason why not. -/
theorem isBody_or_badBody (cell : Cell) :
    (∃ members, cell.IsBody members) ∨ ∃ m, cell.BadBody m := by
  have hjson : ∀ {j : Json} {members : Json.Members},
      j.members? = some members → j = .obj members := by
    rintro j members h
    cases j <;> cases h
    rfl
  cases cell with
  | text s =>
    cases hread : Json.read? s with
    | none => exact .inr ⟨_, .notJson hread⟩
    | some j =>
      cases hj : j.members? with
      | none => exact .inr ⟨_, .textOf hread hj⟩
      | some members => exact .inl ⟨members, .text (hjson hj ▸ hread)⟩
  | json j =>
    cases hj : j.members? with
    | none => exact .inr ⟨_, .json hj⟩
    | some members => exact .inl ⟨members, hjson hj ▸ .json members⟩
  | _ => exact .inr ⟨_, .otherType nofun nofun⟩

/-! ## Rows -/

/-- The row has the id, and a body with the members. -/
def RowHolds (columns : List String) (row : List Cell) (id : Cell) (members : Json.Members) :
    Prop :=
  HasCell columns row idColumn id ∧
    ∃ body, HasCell columns row bodyColumn body ∧ body.IsBody members

/-- The first fault of a row: it has no id, no body, or a body that is no object. -/
inductive Faulty (columns : List String) (row : List Cell) : Malformation → Prop
  | noId (h : ∀ cell, ¬ HasCell columns row idColumn cell) : Faulty columns row (.noColumn idColumn)
  | noBody {id : Cell} (hid : HasCell columns row idColumn id)
    (h : ∀ cell, ¬ HasCell columns row bodyColumn cell) : Faulty columns row (.noColumn bodyColumn)
  | badBody {id body : Cell} {m : Malformation} (hid : HasCell columns row idColumn id)
    (hbody : HasCell columns row bodyColumn body) (h : body.BadBody m) : Faulty columns row m

/-- The members, but for the id in the place of what they have under its key. -/
structure IsWithId (d : Document) (id : Json) (members : Json.Members) : Prop where
  id : d.id? = some id
  others : Entries.erase idColumn d.members = Entries.erase idColumn members
  sorted : Entries.Sorted members → Entries.Sorted d.members

/-- The document has the members of the row's body, and the row's id. -/
def Shows (columns : List String) (row : List Cell) (d : Document) : Prop :=
  ∃ id members, RowHolds columns row id members ∧ d.IsWithId id.toJson members

theorem isWithId_insert (id : Json) (members : Json.Members) :
    IsWithId ⟨Entries.insert idColumn id members⟩ id members where
  id := Entries.get?_insert_self members idColumn id
  others := Entries.erase_insert idColumn id members
  sorted h := h.insert idColumn id

section Row

variable {r : QueryResult} {row : List Cell}

theorem ofRow_of_rowHolds {id : Cell} {members : Json.Members}
    (h : RowHolds r.columns row id members) :
    ofRow r row = .ok ⟨Entries.insert idColumn id.toJson members⟩ := by
  obtain ⟨hid, body, hbody, hmembers⟩ := h
  simp only [ofRow, column, QueryResult.cell?_eq_some_iff.mpr hid,
    QueryResult.cell?_eq_some_iff.mpr hbody]
  show (bodyMembers body >>= fun members => _) = _
  rw [bodyMembers_of_isBody hmembers]
  rfl

theorem ofRow_of_faulty {m : Malformation} (h : Faulty r.columns row m) :
    ofRow r row = .error m := by
  cases h with
  | noId h =>
    simp only [ofRow, column, QueryResult.cell?_eq_none_iff.mpr h]
    rfl
  | noBody hid h =>
    simp only [ofRow, column, QueryResult.cell?_eq_some_iff.mpr hid,
      QueryResult.cell?_eq_none_iff.mpr h]
    rfl
  | @badBody _ body _ hid hbody h =>
    simp only [ofRow, column, QueryResult.cell?_eq_some_iff.mpr hid,
      QueryResult.cell?_eq_some_iff.mpr hbody]
    show (bodyMembers body >>= fun members => _) = _
    rw [bodyMembers_of_badBody h]
    rfl

theorem rowHolds_or_faulty (columns : List String) (row : List Cell) :
    (∃ id members, RowHolds columns row id members) ∨ ∃ m, Faulty columns row m := by
  by_cases hid : ∃ id, HasCell columns row idColumn id
  · obtain ⟨id, hid⟩ := hid
    by_cases hbody : ∃ body, HasCell columns row bodyColumn body
    · obtain ⟨body, hbody⟩ := hbody
      rcases isBody_or_badBody body with ⟨members, h⟩ | ⟨m, h⟩
      · exact .inl ⟨id, members, hid, body, hbody, h⟩
      · exact .inr ⟨m, .badBody hid hbody h⟩
    · exact .inr ⟨_, .noBody hid (not_exists.mp hbody)⟩
  · exact .inr ⟨_, .noId (not_exists.mp hid)⟩

theorem exists_ofRow_eq_ok_iff :
    (∃ d, ofRow r row = .ok d) ↔ ∃ id members, RowHolds r.columns row id members := by
  constructor
  · rintro ⟨d, hd⟩
    refine (rowHolds_or_faulty r.columns row).resolve_right ?_
    rintro ⟨m, hm⟩
    rw [ofRow_of_faulty hm] at hd
    cases hd
  · rintro ⟨id, members, h⟩
    exact ⟨_, ofRow_of_rowHolds h⟩

theorem ofRow_eq_error_iff {m : Malformation} :
    ofRow r row = .error m ↔ Faulty r.columns row m := by
  refine ⟨fun hrow => ?_, ofRow_of_faulty⟩
  rcases rowHolds_or_faulty r.columns row with ⟨id, members, h⟩ | ⟨m', h⟩
  · rw [ofRow_of_rowHolds h] at hrow
    cases hrow
  · rw [ofRow_of_faulty h] at hrow
    cases hrow
    exact h

theorem shows_of_ofRow {d : Document} (hd : ofRow r row = .ok d) : Shows r.columns row d := by
  obtain ⟨id, members, h⟩ := exists_ofRow_eq_ok_iff.mp ⟨d, hd⟩
  rw [ofRow_of_rowHolds h] at hd
  cases hd
  exact ⟨id, members, h, isWithId_insert id.toJson members⟩

end Row

/-! ## Bodies as text -/

/-- The row as it is, or with a text in place of the JSON in its body cell, which
is what the text reads as. -/
def ReencodesRow (columns : List String) (row row' : List Cell) : Prop :=
  row' = row ∨ ∃ before after j s, columns = before ++ bodyColumn :: after ∧
    bodyColumn ∉ before ∧ row[before.length]? = some (.json j) ∧ Json.read? s = some j ∧
    row' = row.set before.length (.text s)

/-- The same rows, but that some bodies are given as text. -/
structure Reencodes (r r' : QueryResult) : Prop where
  columns : r'.columns = r.columns
  rows : List.Forall₂ (ReencodesRow r.columns) r.rows r'.rows

/-- The id and the members of the body make the document. -/
theorem ofRow_congr {r r' : QueryResult} {row row' : List Cell}
    (hid : r.cell? row idColumn = r'.cell? row' idColumn)
    (hbody : (r.cell? row bodyColumn).map bodyMembers =
      (r'.cell? row' bodyColumn).map bodyMembers) :
    ofRow r row = ofRow r' row' := by
  unfold ofRow column
  rw [hid]
  cases r'.cell? row' idColumn with
  | none => rfl
  | some id =>
    cases h : r.cell? row bodyColumn <;> cases h' : r'.cell? row' bodyColumn <;>
      rw [h, h'] at hbody
    · cases hbody
    · cases hbody
    · show (bodyMembers _ >>= fun members => _) = (bodyMembers _ >>= fun members => _)
      rw [Option.some.inj hbody]

theorem ofRow_reencoded {r r' : QueryResult} {row row' : List Cell}
    (hcolumns : r'.columns = r.columns) (h : ReencodesRow r.columns row row') :
    ofRow r row = ofRow r' row' := by
  have hindex : ∀ name, r'.columnIndex? name = r.columnIndex? name := by
    intro name
    rw [QueryResult.columnIndex?, QueryResult.columnIndex?, hcolumns]
  rcases h with rfl | ⟨before, after, j, s, hbody, hbefore, hcell, hread, rfl⟩
  · apply ofRow_congr <;> rw [QueryResult.cell?, QueryResult.cell?, hindex]
  · have hi : r.columnIndex? bodyColumn = some before.length :=
      QueryResult.columnIndex?_eq_some_iff.mpr ⟨before, after, hbody, hbefore, rfl⟩
    apply ofRow_congr
    · -- the id is under another column
      rw [QueryResult.cell?, QueryResult.cell?, hindex]
      cases hid : r.columnIndex? idColumn with
      | none => rfl
      | some k =>
        have hne : before.length ≠ k := by
          rintro rfl
          obtain ⟨b, a, hcut, -, hlength⟩ := QueryResult.columnIndex?_eq_some_iff.mp hid
          rw [hbody] at hcut
          have hheads := List.cons.inj (List.append_inj hcut hlength.symm).2
          exact absurd hheads.1 (by decide)
        exact (List.getElem?_set_ne hne).symm
    · have hlt : before.length < row.length := (List.getElem?_eq_some_iff.mp hcell).1
      rw [QueryResult.cell?, QueryResult.cell?, hindex, hi, Option.bind_some, Option.bind_some,
        hcell, List.getElem?_set_self hlt, Option.map_some, Option.map_some,
        bodyMembers_text hread]

/-! ## All rows and the first -/

/-- How the rows of a reply are read. -/
structure ReadsRows (r : QueryResult) : Prop where
  /-- All are read just if each has an id and a body. -/
  exists_all_iff : (∃ ds, Document.all r = .ok ds) ↔
    ∀ row ∈ r.rows, ∃ id members, RowHolds r.columns row id members
  /-- Then there is one document for each row, in order. -/
  all : ∀ ds, Document.all r = .ok ds → List.Forall₂ (Shows r.columns) r.rows ds
  /-- Else the fault of the first bad row is reported. -/
  fault_iff : ∀ m, Document.all r = .error m ↔ ∃ good row rest, r.rows = good ++ row :: rest ∧
    (∀ row ∈ good, ∃ id members, RowHolds r.columns row id members) ∧ Faulty r.columns row m
  /-- A single document is wanted: without rows there is none. -/
  first_nil : r.rows = [] → Document.first r = .ok none
  /-- Else it is the document of the first row, as if there were no others. -/
  first_cons : ∀ row rest, r.rows = row :: rest →
    Document.first r = (ofRow ⟨r.columns, [row]⟩ row).map some ∧
      (∀ d, Document.first r = .ok d → ∃ shown, d = some shown ∧ Shows r.columns row shown) ∧
      ∀ m, Document.first r = .error m ↔ Faulty r.columns row m
  /-- A body as text, its own or any that reads as it, is read as the body. -/
  reencoded : ∀ r', Reencodes r r' →
    Document.all r' = Document.all r ∧ Document.first r' = Document.first r

theorem ofRow_eq_reencoded {r r' : QueryResult} (h : Reencodes r r') :
    List.Forall₂ (fun row row' => ofRow r row = ofRow r' row') r.rows r'.rows :=
  h.rows.imp fun _ _ hrow => ofRow_reencoded h.columns hrow

theorem all_reencoded {r r' : QueryResult} (h : Reencodes r r') : all r' = all r :=
  (mapM_eq_of_forall₂ (ofRow_eq_reencoded h)).symm

theorem first_of_rows {r : QueryResult} {row : List Cell} {rest : List (List Cell)}
    (h : r.rows = row :: rest) : first r = (ofRow r row).map some := by
  rw [first, h]

theorem first_reencoded {r r' : QueryResult} (h : Reencodes r r') : first r' = first r := by
  have hrows := ofRow_eq_reencoded h
  cases hr : r.rows with
  | nil =>
    rw [hr, List.forall₂_nil_left_iff] at hrows
    rw [first, first, hr, hrows]
  | cons row rest =>
    rw [hr] at hrows
    obtain ⟨row', rest', hrow, -, hr'⟩ := List.forall₂_cons_left_iff.mp hrows
    rw [first_of_rows hr, first_of_rows hr', hrow]

/-- Whatever the columns and the rows are, every row is read by itself, and of
several faults the first is reported. -/
theorem readsRows (r : QueryResult) : ReadsRows r where
  exists_all_iff := by
    rw [all, exists_mapM_eq_ok_iff]
    exact forall₂_congr fun row _ => exists_ofRow_eq_ok_iff
  all ds hds := (mapM_eq_ok hds).imp fun _ _ hrow => shows_of_ofRow hrow
  fault_iff m := by
    rw [all, mapM_eq_error_iff]
    simp only [exists_ofRow_eq_ok_iff, ofRow_eq_error_iff]
  first_nil hrows := by rw [first, hrows]
  first_cons row rest hrows := by
    rw [first_of_rows hrows]
    refine ⟨rfl, fun d hd => ?_, fun m => ?_⟩
    · obtain ⟨shown, hshown, rfl⟩ := map_eq_ok hd
      exact ⟨shown, rfl, shows_of_ofRow hshown⟩
    · rw [← ofRow_eq_error_iff]
      refine ⟨map_eq_error, fun hrow => ?_⟩
      rw [hrow]
      rfl
  reencoded r' h := ⟨all_reencoded h, first_reencoded h⟩

end Document

end DocStore
