import DocStore.Condition.Compile
import DocStore.Proofs.Except

/-!
# What a condition is compiled to

Every compiled condition is a list of comparisons, one for each field in
their order, also on the way to the key column: an id counts as a field
that names the primary key. `Compares` says which comparison a field
becomes, and the target alone decides between the two ways.

On the way to the body, the kind of the value decides how the field is
read (`fieldOperand`) and what is bound (`fieldCell`); the operator
matters for numbers and booleans only.

Main statement: `compile_eq_ok`.
-/

namespace DocStore

/-! ## Comparisons -/

namespace Comparison

variable {lhs : Operand} {operator : Operator} {value : Cell} {asJson : Bool} {c : Comparison}

theorem of_eq_ok (h : of lhs operator value asJson = .ok c) :
    (value = .null ∧ ∃ negated, operator = (if negated then .notEq else .eq) ∧
      c = .isNull lhs negated) ∨
    (value.isNull = false ∧ c = .holds lhs operator value asJson) := by
  unfold of at h
  split at h
  · rename_i hnull
    have hvalue : value = .null := by
      cases value <;> first | rfl | cases hnull
    left
    refine ⟨hvalue, ?_⟩
    split at h
    · cases h
      exact ⟨false, rfl, rfl⟩
    · cases h
      exact ⟨true, rfl, rfl⟩
    · cases h
  · rename_i hnull
    cases h
    exact .inr ⟨by simpa using hnull, rfl⟩

theorem exists_of_iff :
    (∃ c, of lhs operator value asJson = .ok c) ↔
      (value.isNull = true → operator.isOrdering = false) := by
  unfold of
  cases value.isNull <;> cases operator <;> simp [Operator.isOrdering]

theorem of_eq_error {r : Refusal} (h : of lhs operator value asJson = .error r) :
    value.isNull = true ∧ operator.isOrdering = true ∧ r = .nullOrdering operator := by
  unfold of at h
  split at h
  · rename_i hnull
    split at h
    · cases h
    · cases h
    · rename_i hnotEq hne
      cases h
      refine ⟨hnull, ?_, rfl⟩
      cases operator <;> first | rfl | contradiction
  · cases h

/-- How a field of the body is read to be compared with a value. -/
def fieldOperand (segments : List String) (operator : Operator) : Cell → Operand
  | .null | .text _ => .field segments true
  | .json _ => .field segments false
  | .int _ | .float _ =>
    if operator.isOrdering then .guarded segments "number" "numeric" else .field segments false
  | .bool _ =>
    if operator.isOrdering then .guarded segments "boolean" "boolean" else .field segments false

/-- What is bound to be compared with a field of the body. -/
def fieldCell (operator : Operator) : Cell → Cell
  | .null => .null
  | .text s => .text s
  | .json j => .json j
  | value => if operator.isOrdering then value else .json value.toJson

/-- Is the comparison one of JSON values? -/
def comparesJson (operator : Operator) : Cell → Bool
  | .null | .text _ => false
  | .json _ => true
  | _ => !operator.isOrdering

theorem ofField_eq (key : Key) (value : Cell) :
    ofField key value = (do
      let segments ← DocPath.segments key.property
      of (fieldOperand segments key.effective value) key.effective (fieldCell key.effective value)
        (comparesJson key.effective value)) := by
  unfold ofField
  cases DocPath.segments key.property with
  | error refusal => rfl
  | ok segments =>
    cases value with
    | null | text | json => rfl
    | int | float | bool =>
      cases h : key.effective.isOrdering <;>
        simp [fieldOperand, fieldCell, comparesJson, h, bind, Except.bind]

theorem isNull_fieldCell (operator : Operator) (value : Cell) :
    (fieldCell operator value).isNull = value.isNull := by
  cases value with
  | null | text | json => rfl
  | int | float | bool => cases h : operator.isOrdering <;> simp [fieldCell, h, Cell.isNull]

end Comparison

/-! ## Fields -/

namespace Condition

/-- The keys and values that a condition compares. -/
def entries (condition : Condition) (primaryKey : String) : Except Refusal (List (Key × Cell)) :=
  match condition with
  | .all => .ok []
  | .byId id => .ok [(⟨primaryKey, none⟩, id)]
  | .byFields fields => parsedFields fields

/-- A field becomes the comparison `c`. -/
def Compares (target : Target) (primaryKey : String) (field : Key × Cell) (c : Comparison) : Prop :=
  match target with
  | .body => Comparison.ofField field.1 field.2 = .ok c
  | _ => field.1.property = primaryKey ∧
    Comparison.of (.column primaryKey) field.1.effective field.2 false = .ok c

/-- The predicate is the conjunction of the comparisons that the fields become. -/
structure Conjoins (primaryKey : String) (fields : List (Key × Cell))
    (comparisons : List Comparison) (p : Predicate) : Prop where
  compares : List.Forall₂ (Compares p.target primaryKey) fields comparisons
  ne_nil : p.target = .body → comparisons ≠ []
  clause : p.clause =
    Sql.joined " and " (Fragment.numbered 1 (comparisons.map Comparison.fragment))
  params : p.params = Fragment.values (comparisons.map Comparison.fragment)

section Routes

variable {primaryKey : String} {route : Route}

theorem conjoins_all : Conjoins primaryKey [] [] Predicate.matchAll where
  compares := .nil
  ne_nil h := by cases h
  clause := rfl
  params := rfl

theorem conjoins_column {key : Key} {value : Cell} (hkey : key.property = primaryKey)
    (h : Route.ofColumn primaryKey key.effective value = .ok route) :
    ∃ comparisons, Conjoins primaryKey [(key, value)] comparisons route.predicate := by
  obtain ⟨c, hc, h⟩ := bind_eq_ok h
  cases h
  exact ⟨[c], .cons ⟨hkey, hc⟩ .nil, nofun, rfl, rfl⟩

theorem conjoins_body {fields : List (Key × Cell)} (hne : fields ≠ [])
    (h : Route.ofBody fields = .ok route) :
    ∃ comparisons, Conjoins primaryKey fields comparisons route.predicate := by
  obtain ⟨comparisons, hmap, h⟩ := bind_eq_ok h
  cases h
  have hall := mapM_eq_ok hmap
  have hcomparisons : comparisons ≠ [] := by
    rintro rfl
    cases hall
    exact hne rfl
  obtain ⟨c, rest, rfl⟩ := List.exists_cons_of_ne_nil hcomparisons
  exact ⟨c :: rest, hall, fun _ => hcomparisons, rfl, rfl⟩

end Routes

theorem compile_eq_ok {condition : Condition} {primaryKey : String} {p : Predicate}
    (h : condition.compile primaryKey = .ok p) :
    ∃ fields comparisons, condition.entries primaryKey = .ok fields ∧
      Conjoins primaryKey fields comparisons p := by
  obtain ⟨route, hroute, rfl⟩ := map_eq_ok h
  cases condition with
  | all =>
    cases hroute
    exact ⟨[], [], rfl, conjoins_all⟩
  | byId id =>
    have hkey : (Key.mk primaryKey none).property = primaryKey := rfl
    obtain ⟨comparisons, hc⟩ := conjoins_column hkey hroute
    exact ⟨_, comparisons, rfl, hc⟩
  | byFields given =>
    obtain ⟨fields, hfields, hroute⟩ := bind_eq_ok hroute
    unfold Route.ofParsed at hroute
    split at hroute
    · cases hroute
      exact ⟨[], [], hfields, conjoins_all⟩
    · split at hroute
      · rename_i hkey
        obtain ⟨comparisons, hc⟩ := conjoins_column hkey hroute
        exact ⟨_, comparisons, hfields, hc⟩
      · obtain ⟨comparisons, hc⟩ := conjoins_body (by simp) hroute
        exact ⟨_, comparisons, hfields, hc⟩
    · rename_i hne _
      obtain ⟨comparisons, hc⟩ := conjoins_body hne hroute
      exact ⟨_, comparisons, hfields, hc⟩

end Condition

end DocStore
