import DocStore.Proofs.Condition.Meaning
import DocStore.Proofs.Json.Rounding

/-!
# The values of a condition

A value of a condition is bound as it is, or for an equality in the body
as JSON; either way its JSON is the JSON of the value. So what can change
a value is only the passage between JSON and cells: an integer that needs
the sixty-fourth bit is a floating-point number in a cell, and a number
that is not finite is null in JSON. Every other value comes through
unchanged.

Main statement: `bound_as_given`.
-/

namespace DocStore

/-! ## JSON in cells and back -/

/-- The number that a cell holds: a signed integer or a floating-point number. -/
def Number.inCell : Number → Number
  | .int i low high =>
    if h : i ≤ 9223372036854775807 then .int i low high
    else .float (.ofInt i) (isFinite_ofInt h high)
  | .float x finite => .float x finite

def Json.inCell : Json → Json
  | .num n => .num n.inCell
  | j => j

namespace Cell

theorem toJson_ofJson (j : Json) : (ofJson j).toJson = j.inCell := by
  cases j with
  | num n =>
    cases n with
    | int i low high =>
      by_cases h : i ≤ 9223372036854775807
      · have hi : (Int64.ofInt i).toInt = i := Int64.toInt_ofInt_of_le (by omega) (by omega)
        simp only [ofJson, Number.toInt64?, if_pos h, toJson, Number.ofInt64, Json.inCell,
          Number.inCell, dif_pos h, hi]
      · have hfinite : (Float.ofInt i).isFinite = true := isFinite_ofInt h high
        simp only [ofJson, Number.toInt64?, if_neg h, Number.toFloat, toJson, Number.ofFloat?,
          dif_pos hfinite, Json.inCell, Number.inCell, dif_neg h]
    | float x finite =>
      simp only [ofJson, Number.toInt64?, Number.toFloat, toJson, Number.ofFloat?, dif_pos finite,
        Json.inCell, Number.inCell]
  | _ => rfl

theorem isNull_ofJson (j : Json) : (ofJson j).isNull = j.isNull := by
  cases j with
  | num n =>
    simp only [ofJson]
    cases n.toInt64? <;> rfl
  | _ => rfl

/-- The JSON gives the value back, unless the value is a number that JSON cannot
express: that is null. -/
def ReadsBack (j : Json) : Cell → Prop
  | .float x => if x.isFinite then ofJson j = .float x else j = .null
  | .json value => j = value
  | value => ofJson j = value

theorem readsBack_toJson (value : Cell) : value.ReadsBack value.toJson := by
  cases value with
  | int i => exact ofJson_toJson_int i
  | float x =>
    show if x.isFinite then _ else _
    split
    · rename_i h
      exact ofJson_toJson_float h
    · rename_i h
      simp only [toJson, Number.ofFloat?, dif_neg h]
  | _ => rfl

end Cell

/-! ## Parameters -/

namespace Condition

/-- The values that a condition compares with, in order. -/
def values : Condition → List Cell
  | .all => []
  | .byId id => [id]
  | .byFields fields => fields.map Prod.snd

/-- The parameter has the JSON of the value. -/
def Carries (value param : Cell) : Prop := param.toJson = value.toJson

section Fields

variable {target : Target} {field : Key × Cell}

theorem bound_of_null (h : field.2.isNull = true) : bound target field = none := by
  obtain ⟨key, value⟩ := field
  cases value with
  | null => rfl
  | _ => cases h

theorem exists_bound (target : Target) (h : field.2.isNull = false) :
    ∃ param, bound target field = some param ∧ Carries field.2 param := by
  obtain ⟨key, value⟩ := field
  have hjson : ∀ asJson : Bool, Carries value (if asJson then .json value.toJson else value) := by
    rintro (_ | _) <;> rfl
  cases value with
  | null => cases h
  | text s => exact ⟨_, rfl, rfl⟩
  | json j => exact ⟨_, rfl, rfl⟩
  | int | float | bool => exact ⟨_, rfl, hjson _⟩

theorem forall₂_carries : ∀ fields : List (Key × Cell),
    List.Forall₂ Carries ((fields.map Prod.snd).filter fun v => !v.isNull)
      (fields.filterMap (bound target))
  | [] => .nil
  | field :: rest => by
    rw [List.map_cons]
    cases hnull : field.2.isNull with
    | true =>
      rw [List.filter_cons_of_neg (by simp [hnull]), List.filterMap_cons_none (bound_of_null hnull)]
      exact forall₂_carries rest
    | false =>
      obtain ⟨param, hbound, hcarries⟩ := exists_bound target hnull
      rw [List.filter_cons_of_pos (by simp [hnull]), List.filterMap_cons_some hbound]
      exact .cons hcarries (forall₂_carries rest)

end Fields

variable {condition : Condition} {primaryKey : String} {p : Predicate}

theorem map_snd_entries {fields : List (Key × Cell)}
    (h : condition.entries primaryKey = .ok fields) : fields.map Prod.snd = condition.values := by
  cases condition with
  | all =>
    cases h
    rfl
  | byId id =>
    cases h
    rfl
  | byFields pairs =>
    have hparses := forall₂_parses h
    clear h
    induction hparses with
    | nil => rfl
    | cons hfield _ ih =>
      rw [List.map_cons, ih, ← hfield.2]
      rfl

/-- Every value but null has a parameter that carries it. -/
theorem carries_params (h : condition.compile primaryKey = .ok p) :
    List.Forall₂ Carries (condition.values.filter fun v => !v.isNull) p.params := by
  obtain ⟨fields, comparisons, hfields, hconjoins⟩ := compile_eq_ok h
  rw [hconjoins.params, values_of_compares hconjoins.compares, ← map_snd_entries hfields]
  exact forall₂_carries fields

/-! ## Conditions in JSON -/

theorem values_of_ofJson {members : Json.Members}
    (h : Condition.ofJson (.obj members) = .ok condition) :
    condition.values = (members.map Prod.snd).map Cell.ofJson := by
  cases h
  cases members with
  | nil => rfl
  | cons e rest => simp [ofFields, values, Function.comp_def]

theorem filter_isNull_map_ofJson (js : List Json) :
    (js.map Cell.ofJson).filter (fun v => !v.isNull) =
      (js.filter fun j => !j.isNull).map Cell.ofJson := by
  rw [List.filter_map]
  congr 2
  funext j
  simp [Cell.isNull_ofJson]

/-- The values of a condition but for nulls are bound in order, and each can be
read back from its parameter unless it is a number that JSON cannot express.
The parameters of a condition in JSON are its values, but for integers that are
not signed. -/
theorem bound_as_given (h : condition.compile primaryKey = .ok p) :
    List.Forall₂ (fun value param => value.ReadsBack param.toJson)
      (condition.values.filter fun v => !v.isNull) p.params ∧
    ∀ members, Condition.ofJson (.obj members) = .ok condition →
      p.params.map Cell.toJson =
        ((members.map Prod.snd).filter fun j => !j.isNull).map Json.inCell := by
  have hcarries := carries_params h
  refine ⟨hcarries.imp fun value param (hparam : _ = _) => hparam ▸ value.readsBack_toJson, ?_⟩
  intro members hmembers
  have hjson : p.params.map Cell.toJson =
      (condition.values.filter fun v => !v.isNull).map Cell.toJson := by
    rw [← List.forall₂_eq_eq_eq, List.forall₂_map_left_iff, List.forall₂_map_right_iff]
    exact hcarries.flip
  rw [hjson, values_of_ofJson hmembers, filter_isNull_map_ofJson, List.map_map]
  congr 1
  funext j
  exact Cell.toJson_ofJson j

/-! ## Two numbers -/

/-- The largest unsigned integer. -/
def largest : Number := .int 18446744073709551615 (by decide) (by decide)

theorem compile_float (x : Float) : ∃ p, (byFields [("a", .float x)]).compile "id" = .ok p ∧
    p.params = [.json (Cell.float x).toJson] := by
  have hkey : Key.parse "a" = .ok ⟨"a", none⟩ := by cbv
  have hsegments : DocPath.segments "a" = .ok ["a"] := by cbv
  have hparsed : parsedFields [("a", .float x)] = .ok [(⟨"a", none⟩, .float x)] := by
    simp only [parsedFields, List.mapM_cons, hkey]
    rfl
  have hcomparison : Comparison.ofField ⟨"a", none⟩ (.float x) =
      .ok (.holds (.field ["a"] false) .eq (.json (Cell.float x).toJson) true) := by
    rw [Comparison.ofField, hsegments]
    rfl
  have hroute : (byFields [("a", .float x)]).route "id" =
      .ok (.body [.holds (.field ["a"] false) .eq (.json (Cell.float x).toJson) true]) := by
    rw [route, hparsed]
    show Route.ofParsed "id" [(⟨"a", none⟩, .float x)] = _
    rw [Route.ofParsed, if_neg (by decide)]
    simp only [Route.ofBody, List.mapM_cons, hcomparison]
    rfl
  exact ⟨_, congrArg (Except.map Route.predicate) hroute, rfl⟩

theorem bound_as_given_largest :
    ∃ condition p, Condition.ofJson (.obj [("a", .num largest)]) = .ok condition ∧
      condition.compile "id" = .ok p ∧ p.params.map Cell.toJson = [.num largest.inCell] := by
  obtain ⟨p, hcompile, -⟩ := compile_float (.ofInt 18446744073709551615)
  exact ⟨_, p, rfl, hcompile, (bound_as_given hcompile).2 [("a", .num largest)] rfl⟩

/-- An integer that is not signed is bound as another number, and a number that
is not finite as null. -/
theorem not_bound_as_given :
    (∃ condition p, Condition.ofJson (.obj [("a", .num largest)]) = .ok condition ∧
      condition.compile "id" = .ok p ∧ p.params.map Cell.toJson ≠ [.num largest]) ∧
    ∃ p param, (byFields [("a", .float (0 / 0))]).compile "id" = .ok p ∧ p.params = [param] ∧
      Cell.ofJson param.toJson ≠ .float (0 / 0) := by
  obtain ⟨p, hcompile, hparams⟩ := compile_float (.ofInt 18446744073709551615)
  obtain ⟨p', hcompile', hparams'⟩ := compile_float (0 / 0)
  have hfinite : (Float.ofInt 18446744073709551615).isFinite = true :=
    isFinite_ofInt (by decide) (by decide)
  have hnan : ¬ (0 / 0 : Float).isFinite = true := by decide
  refine ⟨⟨_, p, rfl, hcompile, ?_⟩, p', _, hcompile', hparams', ?_⟩
  · simp only [hparams, List.map_cons, Cell.toJson, Number.ofFloat?, dif_pos hfinite]
    intro h
    cases h
  · simp only [Cell.toJson, Number.ofFloat?, dif_neg hnan]
    intro h
    cases h

end Condition

end DocStore
