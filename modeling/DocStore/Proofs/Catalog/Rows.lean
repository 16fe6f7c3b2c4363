import DocStore.Proofs.Reachable
import Mathlib.Data.List.TakeWhile

/-!
# Rows of the catalog

A reply can be read if each of its rows has a schema and a name, and the
row of a function a number of parameters. What is then bound under a
schema and a name is determined by the rows of that name: the first one
of a table, if the filter allows it, and the last one of a function. A
function with more parameters than there is room for cannot be made, and
the rows that follow it are not bound either.

Main statements: `bound_tablesOf`, `bound_functionsOf`.
-/

namespace DocStore.Catalog

/-! ## Rows -/

def text? (r : QueryResult) (row : List Cell) (column : String) : Option String :=
  (r.cell? row column).bind Cell.text?

/-- The row has a schema and a name as texts. -/
def Names (r : QueryResult) (row : List Cell) (schema name : String) : Prop :=
  text? r row "schema" = some schema ∧ text? r row "name" = some name

instance (r : QueryResult) (row : List Cell) (schema name : String) :
    Decidable (Names r row schema name) :=
  inferInstanceAs (Decidable (_ ∧ _))

/-- The number of parameters that a cell stands for: none without a cell, an
integer that is not negative, or such an integer as text. -/
def count? : Option Cell → Option Nat
  | none => some 0
  | some .null => some 0
  | some (.int i) => if 0 ≤ i.toInt then some i.toInt.toNat else none
  | some (.text s) => Chars.size? (Chars.trim s.toList)
  | some _ => none

/-- The primary key of the row of a table: a text that is not empty, or `id`. -/
def primaryKey (r : QueryResult) (row : List Cell) : String :=
  ((text? r row "pk").filter (· ≠ "")).getD defaultPrimaryKey

section Rows

variable {r : QueryResult} {row : List Cell}

theorem requiredText_eq_ok_iff {column s : String} :
    requiredText r row column = .ok s ↔ text? r row column = some s := by
  unfold requiredText text?
  cases (r.cell? row column).bind Cell.text? <;> simp

theorem tableOfRow_eq_ok_iff {d : TableDescriptor} :
    tableOfRow r row = .ok d ↔ Names r row d.schema d.name ∧
      d.primaryKey = (text? r row "pk").filter (· ≠ "") := by
  constructor
  · intro h
    obtain ⟨schema, hschema, h⟩ := bind_eq_ok h
    obtain ⟨name, hname, h⟩ := bind_eq_ok h
    cases h
    exact ⟨⟨requiredText_eq_ok_iff.mp hschema, requiredText_eq_ok_iff.mp hname⟩, rfl⟩
  · rintro ⟨⟨hschema, hname⟩, hkey⟩
    rw [tableOfRow, requiredText_eq_ok_iff.mpr hschema, requiredText_eq_ok_iff.mpr hname]
    obtain ⟨schema, name, key⟩ := d
    cases hkey
    rfl

theorem paramCount_eq_ok_iff {cell : Option Cell} {n : Nat} :
    paramCount cell = .ok n ↔ count? cell = some n := by
  rcases cell with - | (- | i | x | s | b | j)
  case some.int =>
    by_cases hi : 0 ≤ i.toInt <;> simp [paramCount, count?, hi]
  case some.text =>
    cases hs : Chars.size? (Chars.trim s.toList) <;> simp [paramCount, count?, hs]
  all_goals simp [paramCount, count?]

theorem functionOfRow_eq_ok_iff {d : FunctionDescriptor} :
    functionOfRow r row = .ok d ↔ Names r row d.schema d.name ∧
      count? (r.cell? row "param_count") = some d.paramCount := by
  constructor
  · intro h
    obtain ⟨count, hcount, h⟩ := bind_eq_ok h
    obtain ⟨schema, hschema, h⟩ := bind_eq_ok h
    obtain ⟨name, hname, h⟩ := bind_eq_ok h
    cases h
    exact ⟨⟨requiredText_eq_ok_iff.mp hschema, requiredText_eq_ok_iff.mp hname⟩,
      paramCount_eq_ok_iff.mp hcount⟩
  · rintro ⟨⟨hschema, hname⟩, hcount⟩
    rw [functionOfRow, paramCount_eq_ok_iff.mpr hcount, requiredText_eq_ok_iff.mpr hschema,
      requiredText_eq_ok_iff.mpr hname]
    rfl

end Rows

/-! ## Replies that can be read -/

def ReadableTables (r : QueryResult) : Prop :=
  ∀ row ∈ r.rows, ∃ schema name, Names r row schema name

def ReadableFunctions (r : QueryResult) : Prop :=
  ∀ row ∈ r.rows, (∃ schema name, Names r row schema name) ∧
    (count? (r.cell? row "param_count")).isSome

theorem exists_tablesOf_iff {filter : TableFilter} {r : QueryResult} :
    (∃ ds, tablesOf filter r = .ok ds) ↔ ReadableTables r := by
  have hread : (∃ ds, tablesOf filter r = .ok ds) ↔
      ∃ all, r.rows.mapM (tableOfRow r) = .ok all := by
    constructor
    · rintro ⟨ds, h⟩
      obtain ⟨all, hall, -⟩ := bind_eq_ok h
      exact ⟨all, hall⟩
    · rintro ⟨all, hall⟩
      rw [tablesOf, hall]
      exact ⟨_, rfl⟩
  rw [hread, exists_mapM_eq_ok_iff]
  refine forall₂_congr fun row _ => ⟨?_, ?_⟩
  · rintro ⟨d, hd⟩
    exact ⟨d.schema, d.name, (tableOfRow_eq_ok_iff.mp hd).1⟩
  · rintro ⟨schema, name, hnames⟩
    exact ⟨⟨schema, name, _⟩, tableOfRow_eq_ok_iff.mpr ⟨hnames, rfl⟩⟩

theorem exists_functionsOf_iff {r : QueryResult} :
    (∃ ds, functionsOf r = .ok ds) ↔ ReadableFunctions r := by
  rw [functionsOf, exists_mapM_eq_ok_iff]
  refine forall₂_congr fun row _ => ⟨?_, ?_⟩
  · rintro ⟨d, hd⟩
    obtain ⟨hnames, hcount⟩ := functionOfRow_eq_ok_iff.mp hd
    exact ⟨⟨d.schema, d.name, hnames⟩, Option.isSome_of_eq_some hcount⟩
  · rintro ⟨⟨schema, name, hnames⟩, hcount⟩
    obtain ⟨n, hn⟩ := Option.isSome_iff_exists.mp hcount
    exact ⟨⟨schema, name, n⟩, functionOfRow_eq_ok_iff.mpr ⟨hnames, hn⟩⟩

/-! ## Functions that can be made -/

/-- The row does not have more parameters than a function can have. -/
def fits (r : QueryResult) (row : List Cell) : Bool :=
  (count? (r.cell? row "param_count")).all (· ≤ Function.maxPlaceholders)

/-- The reply up to the first row of a function that cannot be made. -/
def made (r : QueryResult) : QueryResult := { r with rows := r.rows.takeWhile (fits r) }

theorem made_eq_self {r : QueryResult} (h : r.rows.all (fits r) = true) : made r = r :=
  congrArg (QueryResult.mk r.columns) (List.takeWhile_eq_self_iff.mpr (List.all_eq_true.mp h))

theorem fits_eq {r : QueryResult} {row : List Cell} {d : FunctionDescriptor}
    (h : functionOfRow r row = .ok d) : fits r row = d.fits := by
  rw [fits, (functionOfRow_eq_ok_iff.mp h).2]
  rfl

section Made

variable {r : QueryResult} {ds : List FunctionDescriptor} (h : functionsOf r = .ok ds)
include h

theorem functionsOf_made : functionsOf (made r) = .ok (ds.takeWhile (·.fits)) :=
  mapM_takeWhile (f := functionOfRow r) fits_eq h

theorem all_fits : ds.all (·.fits) = r.rows.all (fits r) :=
  (all_eq_of_forall₂ (fun h => fits_eq h) (mapM_eq_ok h)).symm

end Made

/-! ## What is bound under a name -/

section Bound

variable (filter : TableFilter) (settings : Settings) (r : QueryResult) (schema name : String)

/-- The table of the first row of a name, if the filter allows it. -/
def tableAt? : Option Entity :=
  if filter.allows schema name then
    (r.rows.find? fun row => Names r row schema name).map fun row =>
      .table ⟨schema, name, primaryKey r row, settings⟩
  else none

/-- The function of the last row of a name. -/
def functionAt? : Option Entity := do
  let row ← r.rows.reverse.find? fun row => Names r row schema name
  let n ← count? (r.cell? row "param_count")
  return .function ⟨schema, name, n, settings⟩

end Bound

/-- Two lists whose items correspond have corresponding first items with a
property. -/
theorem find?_bind_of_forall₂ {α β γ : Type} {R : α → β → Prop} {p : α → Bool} {q : β → Bool}
    {f : α → Option γ} {g : β → Option γ} (hpq : ∀ {x y}, R x y → p x = q y)
    (hfg : ∀ {x y}, R x y → p x = true → f x = g y) {xs : List α} {ys : List β}
    (h : List.Forall₂ R xs ys) : (xs.find? p).bind f = (ys.find? q).bind g := by
  induction h with
  | nil => rfl
  | @cons x y xs ys hxy _ ih =>
    rw [List.find?_cons, List.find?_cons, ← hpq hxy]
    cases hp : p x with
    | true => exact hfg hxy hp
    | false => exact ih

/-- Of the descriptors of one name the first is kept. -/
theorem filter_firstOfEach (schema name : String) (ds : List TableDescriptor) :
    (firstOfEach ds).filter (fun d => d.schema = schema ∧ d.name = name) =
      (ds.find? fun d => d.schema = schema ∧ d.name = name).toList := by
  induction ds with
  | nil => rfl
  | cons d ds ih =>
    rw [firstOfEach, List.filter_cons, List.filter_filter, List.find?_cons]
    by_cases h : d.schema = schema ∧ d.name = name
    · -- the later ones of this name have been dropped
      obtain ⟨rfl, rfl⟩ := h
      simp
    · simp only [h, decide_false]
      rw [← ih]
      refine List.filter_congr fun e _ => ?_
      by_cases he : e.schema = schema ∧ e.name = name
      · obtain ⟨rfl, rfl⟩ := he
        have hne : ¬ (e.schema = d.schema ∧ e.name = d.name) := fun h' => h ⟨h'.1.symm, h'.2.symm⟩
        simpa [-not_and, not_and_or] using hne
      · simp [he]

/-- The filter decides about all descriptors of one name alike. -/
theorem find?_allowed (filter : TableFilter) (schema name : String) (ds : List TableDescriptor) :
    ((ds.filter fun d => filter.allows d.schema d.name).find? fun d =>
        d.schema = schema ∧ d.name = name) =
      if filter.allows schema name then ds.find? fun d => d.schema = schema ∧ d.name = name
      else none := by
  have hpred : ∀ d : TableDescriptor,
      (filter.allows d.schema d.name = true ∧ (d.schema = schema ∧ d.name = name)) ↔
        (filter.allows schema name = true ∧ (d.schema = schema ∧ d.name = name)) := by
    refine fun d => and_congr_left ?_
    rintro ⟨rfl, rfl⟩
    rfl
  rw [List.find?_filter]
  simp only [decide_eq_true_eq, hpred]
  split
  · rename_i hallowed
    simp only [hallowed, true_and]
  · rename_i hdropped
    rw [List.find?_eq_none]
    simp [hdropped]

theorem bound_tablesOf {filter : TableFilter} {r : QueryResult} {ds : List TableDescriptor}
    (h : tablesOf filter r = .ok ds) (settings : Settings) (schema name : String) :
    Namespace.lastBound? (ds.map fun d => .table (.ofDescriptor settings d)) schema name =
      tableAt? filter settings r schema name := by
  obtain ⟨all, hall, h⟩ := bind_eq_ok h
  cases h
  rw [Namespace.lastBound?, List.filter_map, List.getLast?_map]
  change Option.map _ (List.getLast? (List.filter (fun d : TableDescriptor =>
    d.schema = schema ∧ d.name = name) _)) = _
  rw [filter_firstOfEach, find?_allowed, tableAt?]
  split
  · have hlast : ∀ d? : Option TableDescriptor, d?.toList.getLast? = d? := by
      rintro (- | d) <;> rfl
    rw [hlast, Option.map_eq_bind, Option.map_eq_bind]
    refine (find?_bind_of_forall₂ ?_ ?_ (mapM_eq_ok hall)).symm
    · intro row d hd
      obtain ⟨⟨hschema, hname⟩, -⟩ := tableOfRow_eq_ok_iff.mp hd
      simp [Names, hschema, hname]
    · intro row d hd hnames
      obtain ⟨⟨hschema, hname⟩, hkey⟩ := tableOfRow_eq_ok_iff.mp hd
      obtain ⟨hschema', hname'⟩ := of_decide_eq_true hnames
      rw [hschema] at hschema'
      rw [hname] at hname'
      cases hschema'
      cases hname'
      simp only [Function.comp_apply, Table.ofDescriptor, hkey, primaryKey]
  · rfl

theorem bound_functionsOf {r : QueryResult} {ds : List FunctionDescriptor}
    (h : functionsOf r = .ok ds) (settings : Settings) (schema name : String) :
    Namespace.lastBound? (ds.map (·.entity settings)) schema name =
      functionAt? settings r schema name := by
  rw [Namespace.lastBound?, List.filter_map, List.getLast?_map]
  change Option.map _ (List.getLast? (List.filter (fun d : FunctionDescriptor =>
    d.schema = schema ∧ d.name = name) _)) = _
  rw [List.getLast?_filter, Option.map_eq_bind]
  refine (find?_bind_of_forall₂ ?_ ?_ (List.forall₂_reverse_iff.mpr (mapM_eq_ok h))).symm
  · intro row d hd
    obtain ⟨⟨hschema, hname⟩, -⟩ := functionOfRow_eq_ok_iff.mp hd
    simp [Names, hschema, hname]
  · intro row d hd hnames
    obtain ⟨⟨hschema, hname⟩, hcount⟩ := functionOfRow_eq_ok_iff.mp hd
    obtain ⟨hschema', hname'⟩ := of_decide_eq_true hnames
    rw [hschema] at hschema'
    rw [hname] at hname'
    cases hschema'
    cases hname'
    rw [hcount]
    rfl

end DocStore.Catalog
