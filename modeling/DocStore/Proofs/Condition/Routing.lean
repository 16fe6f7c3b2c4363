import DocStore.Proofs.Condition.Meaning
import DocStore.Proofs.Condition.Structure

/-!
# Where a condition is routed

A condition is refused for one of its fields or compiled, and both the
refusal and the shape of the predicate follow from how it is routed: to
all rows, to the key column or to the body (`Routes`). A condition whose
keys can be read has one route, with the fields that are compared on it.

Once the route is known, compiling is the same for all of them: every
field becomes a comparison (`compared`), and the predicate is their
conjunction (`compile_eq`). So a condition is accepted if each field
alone is (`Fits`), and the one that does not fit is to blame.

Main statement: `compile_routes`.
-/

namespace DocStore

theorem Cell.isNull_eq_true_iff {value : Cell} : value.isNull = true ↔ value = .null := by
  cases value <;> simp [Cell.isNull]

namespace Condition

/-! ## Routes -/

/-- The condition compares the primary key and nothing else: it is an id, or a
single field whose property is the key. -/
inductive ByKey (primaryKey : String) : Condition → Key → Cell → Prop
  | id (value : Cell) : ByKey primaryKey (.byId value) ⟨primaryKey, none⟩ value
  | field {name : String} {key : Key} {value : Cell} : Key.parse name = .ok key →
      key.property = primaryKey → ByKey primaryKey (.byFields [(name, value)]) key value

/-- The target of a condition whose keys can be read, and the fields that are
compared there. -/
inductive Routes (primaryKey : String) : Condition → Target → List (Key × Cell) → Prop
  | everything : Routes primaryKey .all .all []
  | noField : Routes primaryKey (.byFields []) .all []
  | column {condition : Condition} {key : Key} {value : Cell} :
      ByKey primaryKey condition key value → Routes primaryKey condition .column [(key, value)]
  | body {pairs : List (String × Cell)} {fields : List (Key × Cell)} :
      List.Forall₂ Parses pairs fields → pairs ≠ [] →
      (∀ key value, ¬ ByKey primaryKey (.byFields pairs) key value) →
      Routes primaryKey (.byFields pairs) .body fields

section Routes

variable {primaryKey : String} {condition : Condition} {target : Target}
  {fields : List (Key × Cell)} {key key' : Key} {value value' : Cell}

theorem ByKey.unique (h : ByKey primaryKey condition key value)
    (h' : ByKey primaryKey condition key' value') : key = key' ∧ value = value' := by
  cases h with
  | id =>
    cases h'
    exact ⟨rfl, rfl⟩
  | field hparse =>
    cases h' with
    | field hparse' =>
      rw [hparse] at hparse'
      cases hparse'
      exact ⟨rfl, rfl⟩

theorem Routes.all_iff (h : Routes primaryKey condition target fields) :
    target = .all ↔ condition = .all ∨ condition = .byFields [] := by
  cases h with
  | everything => simp
  | noField => simp
  | column hkey => cases hkey <;> simp
  | body _ hne _ => simp [hne]

theorem Routes.column_iff (h : Routes primaryKey condition target fields) :
    target = .column ↔ ∃ key value, ByKey primaryKey condition key value := by
  cases h with
  | everything => exact iff_of_false nofun nofun
  | noField => exact iff_of_false nofun nofun
  | column hkey => exact iff_of_true rfl ⟨_, _, hkey⟩
  | body _ _ hother => exact iff_of_false nofun fun ⟨key, value, hkey⟩ => hother key value hkey

theorem Routes.eq_singleton (h : Routes primaryKey condition target fields)
    (hkey : ByKey primaryKey condition key value) : target = .column ∧ fields = [(key, value)] := by
  cases h with
  | everything => cases hkey
  | noField => cases hkey
  | column hkey' =>
    obtain ⟨rfl, rfl⟩ := hkey'.unique hkey
    exact ⟨rfl, rfl⟩
  | body _ _ hother => exact absurd hkey (hother key value)

/-- Only a condition without fields compares none. -/
theorem Routes.eq_nil_iff (h : Routes primaryKey condition target fields) :
    fields = [] ↔ target = .all := by
  cases h with
  | everything => simp
  | noField => simp
  | column _ => simp
  | body hparses hne _ =>
    refine iff_of_false ?_ nofun
    rintro rfl
    cases hparses
    exact hne rfl

end Routes

theorem parsedFields_eq_ok {pairs : List (String × Cell)} {fields : List (Key × Cell)}
    (h : List.Forall₂ Parses pairs fields) : parsedFields pairs = .ok fields := by
  refine mapM_eq_ok_of_forall₂ (h.imp ?_)
  rintro ⟨name, value⟩ ⟨key, _⟩ ⟨hkey, rfl⟩
  show (do return (← Key.parse name, value)) = _
  rw [show Key.parse name = .ok key from hkey]
  rfl

/-- A condition has a route, unless one of its keys cannot be read. -/
theorem routes_or_unreadable (primaryKey : String) (condition : Condition) :
    (∃ target fields, Routes primaryKey condition target fields) ∨
      ∃ pairs r, condition = .byFields pairs ∧ (∃ pair ∈ pairs, Key.parse pair.1 = .error r) ∧
        condition.compile primaryKey = .error r := by
  cases condition with
  | all => exact .inl ⟨_, _, .everything⟩
  | byId id => exact .inl ⟨_, _, .column (.id id)⟩
  | byFields pairs =>
    cases hfields : parsedFields pairs with
    | error r =>
      refine .inr ⟨pairs, r, rfl, ?_, ?_⟩
      · obtain ⟨pair, hpair, h⟩ := mapM_eq_error hfields
        rcases bind_eq_error h with h | ⟨key, -, h⟩
        · exact ⟨pair, hpair, h⟩
        · cases h
      · rw [compile, route, hfields]
        rfl
    | ok fields =>
      have hparses := forall₂_parses hfields
      left
      by_cases hnil : pairs = []
      · subst hnil
        exact ⟨_, _, .noField⟩
      · by_cases hkey : ∃ key value, ByKey primaryKey (.byFields pairs) key value
        · obtain ⟨key, value, hkey⟩ := hkey
          exact ⟨_, _, .column hkey⟩
        · exact ⟨_, _, .body hparses hnil fun key value h => hkey ⟨key, value, h⟩⟩

/-! ## Compiling along a route -/

/-- The comparison that a field becomes on its way to the target. -/
def compared (target : Target) (primaryKey : String) (field : Key × Cell) :
    Except Refusal Comparison :=
  match target with
  | .body => Comparison.ofField field.1 field.2
  | _ => Comparison.of (.column primaryKey) field.1.effective field.2 false

/-- Are the fields compared for equality with the key column? -/
def looksUp (target : Target) (fields : List (Key × Cell)) : Bool :=
  target = .column && fields.all fun field => field.1.effective = .eq

section Compiling

variable {primaryKey : String} {condition : Condition} {target : Target}
  {fields : List (Key × Cell)} {field : Key × Cell}

theorem map_ofColumn (operator : Operator) (value : Cell) :
    (Route.ofColumn primaryKey operator value).map Route.predicate =
      (Comparison.of (.column primaryKey) operator value false).map fun c =>
        .conjunction [c.fragment] (operator = .eq) .column := by
  rw [Route.ofColumn]
  cases Comparison.of (.column primaryKey) operator value false <;> rfl

theorem map_ofBody (fields : List (Key × Cell)) :
    (Route.ofBody fields).map Route.predicate =
      (fields.mapM fun field => Comparison.ofField field.1 field.2).map fun comparisons =>
        .conjunction (comparisons.map Comparison.fragment) false .body := by
  show (fields.mapM (fun field => Comparison.ofField field.1 field.2) >>= _).map _ = _
  cases fields.mapM fun field => Comparison.ofField field.1 field.2 <;> rfl

theorem compile_byKey {key : Key} {value : Cell} (h : ByKey primaryKey condition key value) :
    condition.compile primaryKey =
      (Comparison.of (.column primaryKey) key.effective value false).map fun c =>
        .conjunction [c.fragment] (key.effective = .eq) .column := by
  cases h with
  | id value => exact map_ofColumn .eq value
  | @field name key value hparse hproperty =>
    have hfields : parsedFields [(name, value)] = .ok [(key, value)] :=
      parsedFields_eq_ok (.cons ⟨hparse, rfl⟩ .nil)
    rw [compile, route, hfields]
    show (Route.ofParsed primaryKey [(key, value)]).map Route.predicate = _
    rw [Route.ofParsed, if_pos hproperty]
    exact map_ofColumn key.effective value

theorem compile_body {pairs : List (String × Cell)} (hparses : List.Forall₂ Parses pairs fields)
    (hne : pairs ≠ []) (hother : ∀ key value, ¬ ByKey primaryKey (.byFields pairs) key value) :
    (byFields pairs).compile primaryKey =
      (fields.mapM fun field => Comparison.ofField field.1 field.2).map fun comparisons =>
        .conjunction (comparisons.map Comparison.fragment) false .body := by
  rw [compile, route, parsedFields_eq_ok hparses]
  show (Route.ofParsed primaryKey fields).map Route.predicate = _
  cases hparses with
  | nil => exact absurd rfl hne
  | @cons pair field pairs fields hpair hrest =>
    cases hrest with
    | nil =>
      obtain ⟨name, value⟩ := pair
      obtain ⟨key, _⟩ := field
      obtain ⟨hkey, rfl⟩ := hpair
      have hproperty : key.property ≠ primaryKey := fun h => hother key value (.field hkey h)
      rw [Route.ofParsed, if_neg hproperty]
      exact map_ofBody _
    | cons => exact map_ofBody _

theorem compile_eq (h : Routes primaryKey condition target fields) :
    condition.compile primaryKey =
      (fields.mapM (compared target primaryKey)).map fun comparisons =>
        .conjunction (comparisons.map Comparison.fragment) (looksUp target fields) target := by
  cases h with
  | everything => rfl
  | noField => rfl
  | @column condition key value hkey =>
    rw [compile_byKey hkey, List.mapM_cons, List.mapM_nil]
    show _ = (Comparison.of (.column primaryKey) key.effective value false >>= _).map _
    cases Comparison.of (.column primaryKey) key.effective value false with
    | error r => rfl
    | ok c =>
      show Except.ok _ = Except.ok (Predicate.conjunction [c.fragment] _ .column)
      simp [looksUp]
  | body hparses hne hother => exact compile_body hparses hne hother

/-- What a compiled condition is made of. -/
theorem exists_route {p : Predicate} (h : condition.compile primaryKey = .ok p) :
    ∃ target fields comparisons, Routes primaryKey condition target fields ∧
      List.Forall₂ (fun field c => compared target primaryKey field = .ok c) fields comparisons ∧
      p = .conjunction (comparisons.map Comparison.fragment) (looksUp target fields) target ∧
      p.target = target ∧ p.lookup = looksUp target fields := by
  obtain ⟨target, fields, hroutes⟩ | ⟨_, r, -, -, herror⟩ :=
    routes_or_unreadable primaryKey condition
  · rw [compile_eq hroutes] at h
    obtain ⟨comparisons, hcomparisons, rfl⟩ := map_eq_ok h
    have hall := mapM_eq_ok hcomparisons
    refine ⟨target, fields, comparisons, hroutes, hall, rfl, ?_⟩
    cases hall with
    | nil =>
      obtain rfl := hroutes.eq_nil_iff.mp rfl
      exact ⟨rfl, rfl⟩
    | cons => exact ⟨rfl, rfl⟩
  · rw [herror] at h
    cases h

end Compiling

/-! ## Fields that fit -/

/-- A null value has no order, and in the body the property is a path. -/
def Fits (target : Target) (field : Key × Cell) : Prop :=
  (field.2 = .null → field.1.effective.isOrdering = false) ∧
    (target = .body → "" ∉ DocPath.parts field.1.property)

/-- What a pair is refused for: its key, a part of its path that is blank, or a
null value under an order. -/
inductive Faulty : String × Cell → Refusal → Prop
  | key {name : String} {value : Cell} {r : Refusal} : Key.parse name = .error r →
      Faulty (name, value) r
  | path {name : String} {value : Cell} {key : Key} : Key.parse name = .ok key →
      "" ∈ DocPath.parts key.property → Faulty (name, value) (.badPath key.property)
  | order {name : String} {key : Key} : Key.parse name = .ok key →
      key.effective.isOrdering = true → Faulty (name, .null) (.nullOrdering key.effective)

section Fields

variable {primaryKey : String} {condition : Condition} {target : Target} {field : Key × Cell}
  {r : Refusal}

theorem exists_ofField_iff {key : Key} {value : Cell} :
    (∃ c, Comparison.ofField key value = .ok c) ↔ Fits .body (key, value) := by
  rw [Comparison.ofField_eq, DocPath.segments]
  split
  · next hblank =>
    refine iff_of_false ?_ fun h => h.2 rfl hblank
    rintro ⟨c, h⟩
    cases h
  · next hparts =>
    show (∃ c, Comparison.of _ _ _ _ = .ok c) ↔ _
    rw [Comparison.exists_of_iff, Comparison.isNull_fieldCell, Cell.isNull_eq_true_iff]
    exact ⟨fun h => ⟨h, fun _ => hparts⟩, And.left⟩

theorem exists_compared_iff :
    (∃ c, compared target primaryKey field = .ok c) ↔ Fits target field := by
  have hcolumn : target ≠ .body →
      ((∃ c, Comparison.of (.column primaryKey) field.1.effective field.2 false = .ok c) ↔
        Fits target field) := by
    intro htarget
    rw [Comparison.exists_of_iff, Cell.isNull_eq_true_iff]
    exact ⟨fun h => ⟨h, fun hbody => absurd hbody htarget⟩, And.left⟩
  cases target with
  | body => exact exists_ofField_iff
  | all => exact hcolumn nofun
  | column => exact hcolumn nofun

theorem faulty_of_compared {pair : String × Cell} (hpair : Parses pair field)
    (h : compared target primaryKey field = .error r) : Faulty pair r := by
  obtain ⟨name, value⟩ := pair
  obtain ⟨key, _⟩ := field
  obtain ⟨hkey, rfl⟩ := hpair
  have horder : ∀ {lhs operand asJson}, operand.isNull = value.isNull →
      Comparison.of lhs key.effective operand asJson = .error r → Faulty (name, value) r := by
    intro lhs operand asJson hnull h
    obtain ⟨hoperand, hordering, rfl⟩ := Comparison.of_eq_error h
    obtain rfl := Cell.isNull_eq_true_iff.mp (hnull ▸ hoperand)
    exact .order hkey hordering
  cases target with
  | body =>
    change Comparison.ofField key value = _ at h
    rw [Comparison.ofField_eq] at h
    rcases bind_eq_error h with h | ⟨segments, -, h⟩
    · obtain ⟨hblank, rfl⟩ := DocPath.segments_eq_error_iff.mp h
      exact .path hkey hblank
    · exact horder (Comparison.isNull_fieldCell ..) h
  | all => exact horder rfl h
  | column => exact horder rfl h

theorem exists_compile_iff : (∃ p, condition.compile primaryKey = .ok p) ↔
    ∃ target fields, Routes primaryKey condition target fields ∧
      ∀ field ∈ fields, Fits target field := by
  constructor
  · rintro ⟨p, hp⟩
    obtain ⟨target, fields, comparisons, hroutes, hall, -⟩ := exists_route hp
    refine ⟨target, fields, hroutes, fun field hfield => ?_⟩
    obtain ⟨c, -, hc⟩ := exists_of_forall₂ hall hfield
    exact exists_compared_iff.mp ⟨c, hc⟩
  · rintro ⟨target, fields, hroutes, hfits⟩
    have hcompared : ∀ field ∈ fields, ∃ c, compared target primaryKey field = .ok c :=
      fun field hfield => exists_compared_iff.mpr (hfits field hfield)
    obtain ⟨comparisons, hcomparisons⟩ := exists_mapM_eq_ok_iff.mpr hcompared
    rw [compile_eq hroutes, hcomparisons]
    exact ⟨_, rfl⟩

/-- An id is never refused, and a list of fields is for one of them. -/
theorem exists_faulty (h : condition.compile primaryKey = .error r) :
    ∃ pairs, condition = .byFields pairs ∧ ∃ pair ∈ pairs, Faulty pair r := by
  obtain ⟨target, fields, hroutes⟩ | ⟨pairs, r', rfl, ⟨pair, hpair, hkey⟩, herror⟩ :=
    routes_or_unreadable primaryKey condition
  · rw [compile_eq hroutes] at h
    obtain ⟨field, hfield, hcompared⟩ := mapM_eq_error (map_eq_error h)
    cases hroutes with
    | everything => cases hfield
    | noField => cases hfield
    | column hkey =>
      obtain rfl := List.mem_singleton.mp hfield
      cases hkey with
      | id => cases (Comparison.of_eq_error hcompared).2.1
      | field hparse =>
        exact ⟨_, rfl, _, List.mem_singleton_self _, faulty_of_compared ⟨hparse, rfl⟩ hcompared⟩
    | body hparses =>
      obtain ⟨pair, hpair, hfield⟩ := exists_of_forall₂ hparses.flip hfield
      exact ⟨_, rfl, pair, hpair, faulty_of_compared hfield hcompared⟩
  · rw [herror] at h
    cases h
    exact ⟨pairs, rfl, pair, hpair, .key hkey⟩

end Fields

/-! ## Shapes of predicates -/

theorem effective_eq_iff {key : Key} :
    key.effective = .eq ↔ key.operator = none ∨ key.operator = some .eq := by
  obtain ⟨property, operator⟩ := key
  cases operator <;> simp [Key.effective]

/-- The clause asks whether the key column equals the value, or is null. -/
def EqualsKey (primaryKey : String) (p : Predicate) : Cell → Prop
  | .null => p.clause = [.name primaryKey, .text " is null"] ∧ p.params = []
  | value => p.clause = [.name primaryKey, .text " = ", .placeholder 1] ∧ p.params = [value]

/-- What is asked of a field: with null whether it is there, with another value how it
compares to the value with this ordinal, as JSON if JSON is compared. -/
def fieldTest (field : Key × Cell) (ordinal : Nat) : Sql :=
  let operator := field.1.effective
  if field.2.isNull then [.text (if operator = .eq then " is null" else " is not null")]
  else .text (" " ++ operator.sql ++ " ") :: .placeholder ordinal ::
    if Comparison.comparesJson operator field.2 then [.text "::jsonb"] else []

/-- The clause of a field of the body. -/
def fieldClause (field : Key × Cell) (ordinal : Nat) : Sql :=
  (Comparison.fieldOperand (DocPath.parts field.1.property) field.1.effective field.2).sql ++
    fieldTest field ordinal

/-- The clauses of the fields in order; those with a value are numbered from `next` on. -/
def fieldClauses (next : Nat) : List (Key × Cell) → List Sql
  | [] => []
  | field :: rest =>
    fieldClause field next :: fieldClauses (if field.2.isNull then next else next + 1) rest

section Shapes

variable {primaryKey : String} {condition : Condition} {target : Target}
  {fields : List (Key × Cell)} {p : Predicate}

theorem looksUp_iff (h : Routes primaryKey condition target fields) :
    looksUp target fields = true ↔ ∃ key value, ByKey primaryKey condition key value ∧
      (key.operator = none ∨ key.operator = some .eq) := by
  rw [looksUp, Bool.and_eq_true, decide_eq_true_iff, h.column_iff]
  constructor
  · rintro ⟨⟨key, value, hkey⟩, hall⟩
    rw [(h.eq_singleton hkey).2] at hall
    exact ⟨key, value, hkey, effective_eq_iff.mp (by simpa using hall)⟩
  · rintro ⟨key, value, hkey, hoperator⟩
    rw [(h.eq_singleton hkey).2]
    exact ⟨⟨key, value, hkey⟩, by simpa using effective_eq_iff.mpr hoperator⟩

theorem equalsKey_of_lookup {key : Key} {value : Cell}
    (hp : condition.compile primaryKey = .ok p) (hkey : ByKey primaryKey condition key value)
    (hlookup : p.lookup = true) : EqualsKey primaryKey p value := by
  rw [compile_byKey hkey] at hp
  obtain ⟨c, hc, rfl⟩ := map_eq_ok hp
  have heq : key.effective = .eq := of_decide_eq_true hlookup
  rw [heq] at hc
  cases value <;> cases hc <;> exact ⟨rfl, rfl⟩

theorem rest_of_compares {field : Key × Cell} {c : Comparison}
    (h : Compares .body primaryKey field c) (ordinal : Nat) :
    c.rest ordinal = fieldTest field ordinal ∧ c.fragment.value?.isSome = !field.2.isNull := by
  have hnull : (cell .body field).isNull = field.2.isNull := isNull_cell .body field
  rcases Comparison.of_eq_ok (of_of_compares h) with
    ⟨hcell, negated, hoperator, rfl⟩ | ⟨hcell, rfl⟩
  · rw [hcell] at hnull
    rw [fieldTest, ← hnull, hoperator]
    cases negated <;> exact ⟨rfl, rfl⟩
  · rw [hcell] at hnull
    rw [fieldTest, ← hnull]
    exact ⟨rfl, rfl⟩

theorem sqlAt_of_compares {field : Key × Cell} {c : Comparison}
    (h : Compares .body primaryKey field c) (ordinal : Nat) :
    c.fragment.sqlAt ordinal = fieldClause field ordinal := by
  rw [Comparison.sqlAt_fragment, lhs_of_compares h, (rest_of_compares h ordinal).1]
  rfl

theorem numbered_eq_fieldClauses {comparisons : List Comparison}
    (h : List.Forall₂ (Compares .body primaryKey) fields comparisons) : ∀ next,
    Fragment.numbered next (comparisons.map Comparison.fragment) = fieldClauses next fields := by
  induction h with
  | nil => exact fun _ => rfl
  | @cons field c _ _ hc _ ih =>
    intro next
    have hvalue := (rest_of_compares hc next).2
    rw [List.map_cons, Fragment.numbered_cons, sqlAt_of_compares hc, ih, fieldClauses]
    cases hsome : c.fragment.value? <;> cases hnull : field.2.isNull <;>
      rw [hsome, hnull] at hvalue <;> first | rfl | cases hvalue

theorem exists_clauses (hp : condition.compile primaryKey = .ok p) (hbody : p.target = .body) :
    ∃ pairs fields, condition = .byFields pairs ∧ List.Forall₂ Parses pairs fields ∧
      p.clause = Sql.joined " and " (fieldClauses 1 fields) := by
  obtain ⟨fields, comparisons, hfields, hconjoins⟩ := compile_eq_ok hp
  have hcompares := hconjoins.compares
  rw [hbody] at hcompares
  obtain ⟨target, _, _, hroutes, -, -, htarget, -⟩ := exists_route hp
  obtain rfl : target = .body := htarget.symm.trans hbody
  cases hroutes with
  | @body pairs _ _ _ _ =>
    refine ⟨pairs, fields, rfl, forall₂_parses hfields, ?_⟩
    rw [hconjoins.clause, numbered_eq_fieldClauses hcompares]

end Shapes

/-! ## All of it -/

/-- A condition is accepted if its keys can be read and each field fits its route,
and refused for one of its fields otherwise. The target of the predicate is that
route, a lookup asks for equality with the key, and in the body there is one
clause for each field, in their order. -/
theorem compile_routes (condition : Condition) (primaryKey : String) :
    ((∃ p, condition.compile primaryKey = .ok p) ↔
      ∃ target fields, Routes primaryKey condition target fields ∧
        ∀ field ∈ fields, Fits target field) ∧
    (∀ r, condition.compile primaryKey = .error r →
      (DbError.invalid r).kind = .invalidArgument ∧
      ∃ pairs, condition = .byFields pairs ∧ ∃ pair ∈ pairs, Faulty pair r) ∧
    ∀ p, condition.compile primaryKey = .ok p →
      (p.target = .all ↔ condition = .all ∨ condition = .byFields []) ∧
      (p.target = .column ↔ ∃ key value, ByKey primaryKey condition key value) ∧
      (p.lookup = true ↔ ∃ key value, ByKey primaryKey condition key value ∧
        (key.operator = none ∨ key.operator = some .eq)) ∧
      (∀ key value, ByKey primaryKey condition key value → p.lookup = true →
        EqualsKey primaryKey p value) ∧
      (p.target = .body → ∃ pairs fields, condition = .byFields pairs ∧
        List.Forall₂ Parses pairs fields ∧
        p.clause = Sql.joined " and " (fieldClauses 1 fields)) := by
  refine ⟨exists_compile_iff, fun r h => ⟨rfl, exists_faulty h⟩, fun p hp => ?_⟩
  obtain ⟨target, fields, comparisons, hroutes, -, -, htarget, hlookup⟩ := exists_route hp
  rw [htarget, hlookup]
  refine ⟨hroutes.all_iff, hroutes.column_iff, looksUp_iff hroutes, fun key value hkey h => ?_,
    fun hbody => exists_clauses hp (htarget.trans hbody)⟩
  exact equalsKey_of_lookup hp hkey (hlookup.trans h)

/-- A key with blanks and an operator names the primary key, and null has equality. -/
theorem compile_routes_null_key :
    ByKey "id" (byFields [(" id =", .null)]) ⟨"id", some .eq⟩ .null ∧
      ∃ p, (byFields [(" id =", .null)]).compile "id" = .ok p ∧ p.target = .column ∧
        p.lookup = true ∧ p.clause = [.name "id", .text " is null"] ∧ p.params = [] := by
  have hkey : ByKey "id" (byFields [(" id =", .null)]) ⟨"id", some .eq⟩ .null :=
    .field (by rfl) rfl
  obtain ⟨haccepts, -, hshape⟩ := compile_routes (byFields [(" id =", .null)]) "id"
  have hfits : Fits .column (⟨"id", some .eq⟩, .null) := ⟨fun _ => rfl, nofun⟩
  obtain ⟨p, hp⟩ := haccepts.mpr ⟨_, _, .column hkey, by simpa using hfits⟩
  obtain ⟨-, hcolumn, hlookup, hequals, -⟩ := hshape p hp
  have h : p.lookup = true := hlookup.mpr ⟨_, _, hkey, .inr rfl⟩
  exact ⟨hkey, p, hp, hcolumn.mpr ⟨_, _, hkey⟩, h, hequals _ _ hkey h⟩

end Condition

end DocStore
