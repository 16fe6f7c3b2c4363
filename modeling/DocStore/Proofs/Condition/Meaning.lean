import DocStore.Proofs.Clause.Eval
import DocStore.Proofs.Clause.PlainServer
import DocStore.Proofs.Clause.ReadBack

/-!
# What a condition means

A row satisfies the clause of a condition on the body if and only if the
field of every pair is as the pair asks (`Asks`), and the clause can be
evaluated over every row whose body is an object: a field is cast only
where its JSON type allows it.

The proof goes through the expressions that the clause is read as. Each
side of a comparison is evaluated to the field of the body; then the
parameter is the one with the ordinal of the comparison, because the
ordinals count the values that are bound.

Main statement: `eval_clause`.
-/

namespace DocStore

open Clause (Server Row Datum Fault Expr)

/-! ## What a pair asks of a field -/

/-- The value at a path of member names. -/
def Json.field? : List String → Json → Option Json
  | [], j => some j
  | key :: rest, j => (j.member? key).bind (field? rest)

/-- A number, or a value that is not that number, or a number in that order. -/
def Operator.AsksNumber (operator : Operator) (x : Option Json) (n : Number) : Prop :=
  match operator with
  | .eq => ∃ m, x = some (.num m) ∧ m.value = n.value
  | .notEq => ∃ j, x = some j ∧ ∀ m, j = .num m → m.value ≠ n.value
  | operator => ∃ m, x = some (.num m) ∧ operator.accepts (Clause.numberOrder m.value n.value)

def Operator.AsksBool (operator : Operator) (x : Option Json) (b : Bool) : Prop :=
  match operator with
  | .eq => x = some (.bool b)
  | .notEq => ∃ j, x = some j ∧ j ≠ .bool b
  | operator => ∃ a, x = some (.bool a) ∧ operator.accepts (compare a b)

/-- Texts are equal only to themselves; their order is that of the database. -/
def Operator.RelatesText (server : Server) (operator : Operator) (s t : String) : Prop :=
  match operator with
  | .eq => s = t
  | .notEq => s ≠ t
  | operator => operator.accepts (server.textOrder s t)

/-- A value other than null whose text compares so. -/
def Operator.AsksText (server : Server) (operator : Operator) (x : Option Json)
    (s : String) : Prop :=
  ∃ j, x = some j ∧ j ≠ .null ∧ operator.RelatesText server (server.shown j) s

def Operator.AsksJson (server : Server) (operator : Operator) (x : Option Json) (j : Json) : Prop :=
  ∃ i, x = some i ∧ operator.accepts (server.jsonOrder i j)

/-- Is the field absent? A JSON null counts as absent. -/
def Operator.AsksNull (operator : Operator) (x : Option Json) : Prop :=
  match operator with
  | .eq => x = none ∨ x = some .null
  | .notEq => ¬ (x = none ∨ x = some .null)
  | _ => False

/-- What a pair with this operator and value asks of the field. -/
def Operator.Asks (server : Server) (operator : Operator) (x : Option Json) : Cell → Prop
  | .null => operator.AsksNull x
  | .text s => operator.AsksText server x s
  | .json j => operator.AsksJson server x j
  | .bool b => operator.AsksBool x b
  | .int i => operator.AsksNumber x (.ofInt64 i)
  | .float f => ∃ h : f.isFinite = true, operator.AsksNumber x (.float f h)

/-! ## Fields -/

namespace Clause

variable {server : Server} {row : Row} {params : List Cell}

/-- A value as a datum, with null for none. -/
def Server.datum (server : Server) (asText : Bool) (x : Option Json) : Datum :=
  x.elim .null (if asText then server.asText else .json)

theorem eval_member {e : Expr} {x : Option Json}
    (he : e.eval server row params = .ok (server.datum false x)) (asText : Bool) (key : String) :
    (Expr.binary (.member asText) e (.literal key)).eval server row params =
      .ok (server.datum asText (x.bind (Json.member? key))) := by
  rw [Expr.eval, he]
  cases x with
  | none => rfl
  | some j =>
    show server.member asText (.json j) (.text key) = _
    rw [Server.member, Option.bind_some]
    cases j.member? key <;> cases asText <;> rfl

theorem eval_members (asText : Bool) : ∀ {segments : List String} {e : Expr} {x : Option Json},
    segments ≠ [] → e.eval server row params = .ok (server.datum false x) →
    (e.members asText segments).eval server row params =
      .ok (server.datum asText (x.bind (Json.field? segments)))
  | [key], e, x, _, he => by
    have hfield : Json.field? [key] = Json.member? key := by
      funext j
      rw [Json.field?]
      cases j.member? key <;> rfl
    rw [Expr.members, eval_member he, hfield]
  | key :: next :: rest, e, x, _, he => by
    have hstep := eval_member he false key
    have hfield : x.bind (Json.field? (key :: next :: rest)) =
        (x.bind (Json.member? key)).bind (Json.field? (next :: rest)) := by
      rw [Option.bind_assoc]
      rfl
    rw [hfield, ← eval_members asText (by simp) hstep]
    rfl

variable {members : Json.Members} {segments : List String}

theorem eval_field (hrow : row "body" = some (.json (.obj members))) (hne : segments ≠ [])
    (asText : Bool) :
    (Expr.field segments asText).eval server row params =
      .ok (server.datum asText (Json.field? segments (.obj members))) := by
  have hbody : (Expr.column "body").eval server row params =
      .ok (server.datum false (some (.obj members))) := by
    rw [Expr.eval, hrow]
    rfl
  exact eval_members asText hne hbody

theorem eval_typeOf (hrow : row "body" = some (.json (.obj members))) (hne : segments ≠ [])
    (type : String) :
    (Expr.binary (.compare .eq) (.typeOf (.field segments false)) (.literal type)).eval
        server row params =
      .ok (match Json.field? segments (.obj members) with
        | none => .null
        | some j => .bool (jsonType j = type)) := by
  have hfield : (Expr.field segments false).eval server row params = _ := eval_field hrow hne false
  simp only [Expr.eval, hfield]
  cases Json.field? segments (.obj members) with
  | none => rfl
  | some j =>
    have hequal : Operator.eq.accepts (server.textOrder (jsonType j) type) =
        decide (jsonType j = type) := by
      rw [Operator.accepts, Bool.eq_iff_iff, beq_iff_eq, decide_eq_true_iff, server.textOrder_eq]
    show Except.ok (Datum.bool (Operator.eq.accepts (server.textOrder (jsonType j) type))) = _
    rw [hequal]

/-- The JSON type is tested first, so only the text of a value of that type is cast. -/
theorem eval_guarded (hrow : row "body" = some (.json (.obj members))) (hne : segments ≠ [])
    (type sqlType : String) :
    (Expr.ofOperand (.guarded segments type sqlType)).eval server row params =
      match Json.field? segments (.obj members) with
      | none => .ok .null
      | some j => if jsonType j = type then castTo sqlType (server.asText j) else .ok .null := by
  have htext : (Expr.field segments true).eval server row params = _ := eval_field hrow hne true
  rw [Expr.ofOperand, Expr.eval, eval_typeOf hrow hne, Expr.eval, htext]
  cases Json.field? segments (.obj members) with
  | none => rfl
  | some j =>
    by_cases htype : jsonType j = type
    · simp only [htype, decide_true, if_true]
      rfl
    · simp only [htype, decide_false, if_false]
      rfl

theorem eval_number (hrow : row "body" = some (.json (.obj members))) (hne : segments ≠ []) :
    (Expr.ofOperand (.guarded segments "number" "numeric")).eval server row params =
      .ok (match Json.field? segments (.obj members) with
        | some (.num m) => .number m.value
        | _ => .null) := by
  rw [eval_guarded hrow hne]
  cases Json.field? segments (.obj members) with
  | none => rfl
  | some j =>
    cases j with
    | num m =>
      show castTo "numeric" (.text (server.text (.num m))) = _
      simp [castTo, server.numeric?_text]
    | _ => rfl

theorem eval_boolean (hrow : row "body" = some (.json (.obj members))) (hne : segments ≠ []) :
    (Expr.ofOperand (.guarded segments "boolean" "boolean")).eval server row params =
      .ok (match Json.field? segments (.obj members) with
        | some (.bool b) => .bool b
        | _ => .null) := by
  rw [eval_guarded hrow hne]
  cases Json.field? segments (.obj members) with
  | none => rfl
  | some j =>
    cases j with
    | bool b =>
      show castTo "boolean" (.text (server.text (.bool b))) = _
      rw [server.text_bool]
      cases b <;> rfl
    | _ => rfl

/-! ## Comparisons -/

/-- The expression has a value, and its value is true if and only if `holds`. -/
def Tests (server : Server) (row : Row) (params : List Cell) (e : Expr) (holds : Prop) : Prop :=
  ∃ d, e.eval server row params = .ok d ∧ (d = .null ∨ ∃ b, d = .bool b) ∧ (d = .bool true ↔ holds)

theorem tests_of_null {e : Expr} {holds : Prop} (he : e.eval server row params = .ok .null)
    (h : ¬ holds) : Tests server row params e holds :=
  ⟨.null, he, .inl rfl, by simp [h]⟩

theorem tests_of_bool {e : Expr} {holds : Prop} {b : Bool}
    (he : e.eval server row params = .ok (.bool b)) (h : b = true ↔ holds) :
    Tests server row params e holds :=
  ⟨.bool b, he, .inr ⟨b, rfl⟩, by rw [← h, Datum.bool.injEq]⟩

theorem tests_both {e f : Expr} {p q : Prop} (he : Tests server row params e p)
    (hf : Tests server row params f q) : Tests server row params (.binary .both e f) (p ∧ q) := by
  obtain ⟨d, hd, hbool, htrue⟩ := he
  obtain ⟨d', hd', hbool', htrue'⟩ := hf
  have heval : (Expr.binary .both e f).eval server row params = both d d' := by
    rw [Expr.eval, hd, hd']
    rfl
  rw [Tests, heval, ← htrue, ← htrue']
  rcases hbool with rfl | ⟨b, rfl⟩ <;> rcases hbool' with rfl | ⟨b', rfl⟩
  · exact ⟨_, rfl, by simp⟩
  · cases b' <;> exact ⟨_, rfl, by simp⟩
  · cases b <;> exact ⟨_, rfl, by simp⟩
  · cases b <;> cases b' <;> exact ⟨_, rfl, by simp⟩

theorem tests_all {e : Expr} {p : Prop} (he : Tests server row params e p) :
    ∀ {rest : List Expr} {q : List Prop}, List.Forall₂ (Tests server row params) rest q →
      Tests server row params (.all e rest) (p ∧ ∀ r ∈ q, r) := by
  intro rest q h
  induction h generalizing e p with
  | nil => simpa [Expr.all] using he
  | @cons f r rest q hf _ ih =>
    have := ih (tests_both he hf)
    rw [List.forall_mem_cons, ← and_assoc]
    exact this

section Operators

variable {operator : Operator} {n : Nat}

theorem accepts_eq {o : Ordering} : Operator.eq.accepts o = true ↔ o = .eq := by
  cases o <;> decide

theorem accepts_notEq {o : Ordering} : Operator.notEq.accepts o = true ↔ o ≠ .eq := by
  cases o <;> decide

theorem accepts_textOrder {s t : String} :
    operator.accepts (server.textOrder s t) = true ↔ operator.RelatesText server s t := by
  cases operator with
  | eq => exact accepts_eq.trans server.textOrder_eq
  | notEq => exact accepts_notEq.trans (not_congr server.textOrder_eq)
  | lt | ltEq | gt | gtEq => exact Iff.rfl

theorem eval_compare {left right : Expr} {l r : Datum}
    (hl : left.eval server row params = .ok l) (hr : right.eval server row params = .ok r) :
    (Expr.binary (.compare operator) left right).eval server row params =
      server.compare operator l r := by
  rw [Expr.eval, hl, hr]
  rfl

variable (hrow : row "body" = some (.json (.obj members))) (hne : segments ≠ [])

include hrow hne

theorem tests_isNull (negated : Bool) :
    Tests server row params (.isNull (.field segments true) negated)
      ((if negated then Operator.notEq else .eq).AsksNull
        (Json.field? segments (.obj members))) := by
  have hfield : (Expr.field segments true).eval server row params = _ := eval_field hrow hne true
  have heval : (Expr.isNull (.field segments true) negated).eval server row params =
      .ok (.bool
        ((server.datum true (Json.field? segments (.obj members))).isNull != negated)) := by
    rw [Expr.eval, hfield]
    rfl
  apply tests_of_bool heval
  cases Json.field? segments (.obj members) with
  | none => cases negated <;> simp [Server.datum, Datum.isNull, Operator.AsksNull]
  | some j =>
    cases j <;> cases negated <;>
      simp [Server.datum, Server.asText, Datum.isNull, Operator.AsksNull]

theorem tests_text {s : String} (hparam : params[n]? = some (.text s)) :
    Tests server row params (.binary (.compare operator) (.field segments true) (.param (n + 1)))
      (operator.AsksText server (Json.field? segments (.obj members)) s) := by
  have hfield : (Expr.field segments true).eval server row params = _ := eval_field hrow hne true
  have hright : (Expr.param (n + 1)).eval server row params = .ok (.text s) := by
    simp [Expr.eval, parameter, hparam]
  have heval : (Expr.binary (.compare operator) (.field segments true) (.param (n + 1))).eval
      server row params = _ := eval_compare hfield hright
  cases hx : Json.field? segments (.obj members) with
  | none =>
    rw [hx] at heval
    apply tests_of_null heval
    rintro ⟨j, ⟨⟩, -⟩
  | some j =>
    rw [hx] at heval
    by_cases hj : j = .null
    · rw [hj] at heval
      apply tests_of_null heval
      rintro ⟨i, ⟨⟩, hi, -⟩
      exact hi hj
    · have hshown : server.datum true (some j) = .text (server.shown j) := by
        cases j <;> first | rfl | exact absurd rfl hj
      rw [hshown] at heval
      apply tests_of_bool heval
      simp [Operator.AsksText, hj, accepts_textOrder]

theorem tests_json {j : Json} (hparam : params[n]? = some (.json j)) :
    Tests server row params
      (.binary (.compare operator) (.field segments false) (.cast (.param (n + 1)) "jsonb"))
      (operator.AsksJson server (Json.field? segments (.obj members)) j) := by
  have hfield : (Expr.field segments false).eval server row params = _ := eval_field hrow hne false
  have hright : (Expr.cast (.param (n + 1)) "jsonb").eval server row params = .ok (.json j) := by
    have hparameter : parameter params (n + 1) = .ok (.json j) := by simp [parameter, hparam]
    rw [Expr.eval, Expr.eval, hparameter]
    rfl
  have heval : (Expr.binary (.compare operator) (.field segments false)
      (.cast (.param (n + 1)) "jsonb")).eval server row params = _ := eval_compare hfield hright
  cases hx : Json.field? segments (.obj members) with
  | none =>
    rw [hx] at heval
    apply tests_of_null heval
    rintro ⟨i, ⟨⟩, -⟩
  | some i =>
    rw [hx] at heval
    apply tests_of_bool heval
    simp [Operator.AsksJson]

theorem tests_number {q : Rat} (hparam : parameter params (n + 1) = .ok (.number q)) :
    Tests server row params (.binary (.compare operator)
        (.ofOperand (.guarded segments "number" "numeric")) (.param (n + 1)))
      (∃ m, Json.field? segments (.obj members) = some (.num m) ∧
        operator.accepts (numberOrder m.value q)) := by
  have hfield : (Expr.ofOperand (.guarded segments "number" "numeric")).eval
      server row params = _ := eval_number hrow hne
  have hright : (Expr.param (n + 1)).eval server row params = .ok (.number q) := hparam
  have heval : (Expr.binary (.compare operator) (.ofOperand (.guarded segments "number" "numeric"))
      (.param (n + 1))).eval server row params = _ := eval_compare hfield hright
  generalize Json.field? segments (.obj members) = x at heval ⊢
  match x with
  | some (.num m) =>
    apply tests_of_bool heval
    simp
  | none | some .null | some (.bool _) | some (.str _) | some (.arr _) | some (.obj _) =>
    apply tests_of_null heval
    rintro ⟨m, ⟨⟩, -⟩

theorem tests_boolean {b : Bool} (hparam : params[n]? = some (.bool b)) :
    Tests server row params (.binary (.compare operator)
        (.ofOperand (.guarded segments "boolean" "boolean")) (.param (n + 1)))
      (∃ a, Json.field? segments (.obj members) = some (.bool a) ∧
        operator.accepts (compare a b)) := by
  have hfield : (Expr.ofOperand (.guarded segments "boolean" "boolean")).eval
      server row params = _ := eval_boolean hrow hne
  have hright : (Expr.param (n + 1)).eval server row params = .ok (.bool b) := by
    simp [Expr.eval, parameter, hparam]
  have heval : (Expr.binary (.compare operator) (.ofOperand (.guarded segments "boolean" "boolean"))
      (.param (n + 1))).eval server row params = _ := eval_compare hfield hright
  generalize Json.field? segments (.obj members) = x at heval ⊢
  match x with
  | some (.bool a) =>
    apply tests_of_bool heval
    simp
  | none | some .null | some (.num _) | some (.str _) | some (.arr _) | some (.obj _) =>
    apply tests_of_null heval
    rintro ⟨m, ⟨⟩, -⟩

end Operators

/-! ## Equality of JSON values -/

section Equality

variable {operator : Operator} {x : Option Json}

theorem asksJson_eq {j : Json} :
    Operator.eq.AsksJson server x j ↔ ∃ i, x = some i ∧ server.jsonOrder i j = .eq :=
  exists_congr fun _ => and_congr_right fun _ => accepts_eq

theorem asksJson_notEq {j : Json} :
    Operator.notEq.AsksJson server x j ↔ ∃ i, x = some i ∧ ¬ server.jsonOrder i j = .eq :=
  exists_congr fun _ => and_congr_right fun _ => accepts_notEq

theorem asksJson_num (h : operator.isOrdering = false) (n : Number) :
    operator.AsksJson server x (.num n) ↔ operator.AsksNumber x n := by
  cases operator with
  | eq =>
    simp only [asksJson_eq, server.jsonOrder_num, Operator.AsksNumber]
    constructor
    · rintro ⟨i, hx, m, rfl, hm⟩
      exact ⟨m, hx, hm⟩
    · rintro ⟨m, hx, hm⟩
      exact ⟨_, hx, m, rfl, hm⟩
  | notEq =>
    simp only [asksJson_notEq, server.jsonOrder_num, Operator.AsksNumber, not_exists, not_and, Ne]
  | lt | ltEq | gt | gtEq => cases h

theorem asksJson_bool (h : operator.isOrdering = false) (b : Bool) :
    operator.AsksJson server x (.bool b) ↔ operator.AsksBool x b := by
  cases operator with
  | eq => simp only [asksJson_eq, server.jsonOrder_bool, Operator.AsksBool, exists_eq_right]
  | notEq => simp only [asksJson_notEq, server.jsonOrder_bool, Operator.AsksBool, Ne]
  | lt | ltEq | gt | gtEq => cases h

end Equality

/-! ## Pairs -/

section Pairs

open Comparison

variable {operator : Operator} {n : Nat} {value : Cell}

variable (hrow : row "body" = some (.json (.obj members))) (hne : segments ≠ [])

include hrow hne

/-- The same for both kinds of numbers: equality compares JSON values, an order
casts the field. -/
theorem tests_ofNumber {number : Number} (hjson : value.toJson = .num number)
    (hdatum : params[n]? = some value → parameter params (n + 1) = .ok (.number number.value))
    (hparam : params[n]? = some (if operator.isOrdering then value else .json value.toJson)) :
    Tests server row params
      (.ofComparison (n + 1) (.holds
        (if operator.isOrdering then .guarded segments "number" "numeric"
          else .field segments false)
        operator (if operator.isOrdering then value else .json value.toJson)
        (!operator.isOrdering)))
      (operator.AsksNumber (Json.field? segments (.obj members)) number) := by
  cases hordering : operator.isOrdering with
  | false =>
    rw [hordering, hjson] at hparam
    rw [← asksJson_num hordering]
    exact tests_json hrow hne hparam
  | true =>
    rw [hordering] at hparam
    have hasks : operator.AsksNumber (Json.field? segments (.obj members)) number =
        ∃ m, Json.field? segments (.obj members) = some (.num m) ∧
          operator.accepts (numberOrder m.value number.value) := by
      cases operator <;> first | rfl | cases hordering
    rw [hasks]
    exact tests_number hrow hne (hdatum hparam)

theorem tests_ofBool {b : Bool}
    (hparam : params[n]? = some (if operator.isOrdering then .bool b else .json (.bool b))) :
    Tests server row params
      (.ofComparison (n + 1) (.holds
        (if operator.isOrdering then .guarded segments "boolean" "boolean"
          else .field segments false)
        operator (if operator.isOrdering then .bool b else .json (.bool b))
        (!operator.isOrdering)))
      (operator.AsksBool (Json.field? segments (.obj members)) b) := by
  cases hordering : operator.isOrdering with
  | false =>
    rw [hordering] at hparam
    rw [← asksJson_bool hordering]
    exact tests_json hrow hne hparam
  | true =>
    rw [hordering] at hparam
    have hasks : operator.AsksBool (Json.field? segments (.obj members)) b =
        ∃ a, Json.field? segments (.obj members) = some (.bool a) ∧
          operator.accepts (compare a b) := by
      cases operator <;> first | rfl | cases hordering
    rw [hasks]
    exact tests_boolean hrow hne hparam

/-- The comparison of a pair tests what the pair asks. -/
theorem tests_comparison {c : Comparison}
    (h : of (fieldOperand segments operator value) operator (fieldCell operator value)
      (comparesJson operator value) = .ok c)
    (hfinite : ∀ x, value = .float x → x.isFinite = true)
    (hparam : ∀ v ∈ c.fragment.value?, params[n]? = some v) :
    Tests server row params (.ofComparison (n + 1) c)
      (operator.Asks server (Json.field? segments (.obj members)) value) := by
  rcases of_eq_ok h with ⟨hcell, negated, hoperator, rfl⟩ | ⟨hcell, rfl⟩
  · have hnull : value.isNull = true := by
      rw [← isNull_fieldCell operator, hcell]
      rfl
    cases value with
    | null =>
      rw [hoperator]
      exact tests_isNull hrow hne negated
    | _ => cases hnull
  · rw [isNull_fieldCell] at hcell
    have hparam := hparam _ rfl
    cases value with
    | null => cases hcell
    | text s => exact tests_text hrow hne hparam
    | json j => exact tests_json hrow hne hparam
    | bool b => exact tests_ofBool hrow hne hparam
    | int i =>
      apply tests_ofNumber hrow hne rfl _ hparam
      intro hparam
      simp [parameter, hparam]
    | float x =>
      have hx := hfinite x rfl
      have hnumber : Number.ofFloat? x = some (.float x hx) := dif_pos hx
      have hjson : (Cell.float x).toJson = .num (.float x hx) := by
        rw [Cell.toJson, hnumber]
      have hasks : operator.Asks server (Json.field? segments (.obj members)) (.float x) =
          operator.AsksNumber (Json.field? segments (.obj members)) (.float x hx) := by
        rw [Operator.Asks, exists_prop_of_true hx]
      rw [hasks]
      apply tests_ofNumber hrow hne hjson _ hparam
      intro hparam
      simp [parameter, hparam, hnumber]

end Pairs

end Clause

/-! ## Conditions -/

namespace Condition

open Clause

/-- The field of a body is as the pair of a key and a value asks. -/
def FieldHolds (server : Server) (body : Json) (pair : String × Cell) : Prop :=
  ∃ key segments, Key.parse pair.1 = .ok key ∧ DocPath.segments key.property = .ok segments ∧
    key.effective.Asks server (Json.field? segments body) pair.2

variable {server : Server} {row : Row} {params : List Cell} {members : Json.Members}

theorem fieldHolds_iff {pair : String × Cell} {key : Key} {segments : List String}
    (hkey : Key.parse pair.1 = .ok key) (hsegments : DocPath.segments key.property = .ok segments)
    (body : Json) : FieldHolds server body pair ↔
      key.effective.Asks server (Json.field? segments body) pair.2 := by
  constructor
  · rintro ⟨key', segments', hkey', hsegments', h⟩
    rw [hkey] at hkey'
    cases hkey'
    rw [hsegments] at hsegments'
    cases hsegments'
    exact h
  · exact fun h => ⟨key, segments, hkey, hsegments, h⟩

/-- The pair is parsed to this field. -/
def Parses (pair : String × Cell) (field : Key × Cell) : Prop :=
  Key.parse pair.1 = .ok field.1 ∧ pair.2 = field.2

theorem forall₂_parses {pairs : List (String × Cell)} {fields : List (Key × Cell)}
    (h : parsedFields pairs = .ok fields) : List.Forall₂ Parses pairs fields := by
  refine (mapM_eq_ok h).imp ?_
  rintro ⟨key, value⟩ field hfield
  obtain ⟨parsed, hparsed, hfield⟩ := bind_eq_ok hfield
  cases hfield
  exact ⟨hparsed, rfl⟩

theorem tests_field {primaryKey : String} {pair : String × Cell} {field : Key × Cell}
    {c : Comparison} {n : Nat} (hrow : row "body" = some (.json (.obj members)))
    (hparses : Parses pair field) (hcompares : Compares .body primaryKey field c)
    (hfinite : ∀ x, pair.2 = .float x → x.isFinite = true)
    (hparam : ∀ v ∈ c.fragment.value?, params[n]? = some v) :
    Tests server row params (.ofComparison (n + 1) c) (FieldHolds server (.obj members) pair) := by
  obtain ⟨hkey, hvalue⟩ := hparses
  rw [Compares, Comparison.ofField_eq] at hcompares
  obtain ⟨segments, hsegments, hc⟩ := bind_eq_ok hcompares
  have hne : segments ≠ [] := by
    obtain ⟨-, rfl⟩ := DocPath.segments_eq_ok_iff.mp hsegments
    have hsplit := Chars.splitOn_ne_nil '.' field.1.property.toList
    simpa [DocPath.parts, Text.splitOn] using hsplit
  rw [fieldHolds_iff hkey hsegments, hvalue]
  exact tests_comparison hrow hne hc (hvalue ▸ hfinite) hparam

/-- Over the comparisons, the parameters not yet used are the values that the
comparisons to come bind. -/
theorem tests_numbered {primaryKey : String} (hrow : row "body" = some (.json (.obj members)))
    {pairs : List (String × Cell)} {fields : List (Key × Cell)} {comparisons : List Comparison}
    (hparses : List.Forall₂ Parses pairs fields)
    (hcompares : List.Forall₂ (Compares .body primaryKey) fields comparisons)
    (hfinite : ∀ pair ∈ pairs, ∀ x, pair.2 = .float x → x.isFinite = true) {n : Nat}
    (hparams : params.drop n = Fragment.values (comparisons.map Comparison.fragment)) :
    List.Forall₂ (Tests server row params) (Expr.numbered (n + 1) comparisons)
      (pairs.map (FieldHolds server (.obj members))) := by
  induction hparses generalizing comparisons n with
  | nil =>
    cases hcompares
    exact .nil
  | @cons pair field pairs fields hpair _ ih =>
    cases hcompares with
    | @cons _ c _ comparisons hc hcompares =>
      rw [List.forall_mem_cons] at hfinite
      rw [List.map_cons, Fragment.values_eq_filterMap, List.filterMap_cons] at hparams
      have hparam : ∀ v ∈ c.fragment.value?, params[n]? = some v := by
        intro v hv
        rw [Option.mem_def.mp hv] at hparams
        rw [← List.head?_drop, hparams, List.head?_cons]
      have hrest : params.drop (n + c.fragment.value?.toList.length) =
          Fragment.values (comparisons.map Comparison.fragment) := by
        rw [← List.drop_drop, Fragment.values_eq_filterMap]
        cases hvalue : c.fragment.value? with
        | none =>
          rw [hvalue] at hparams
          exact hparams
        | some v =>
          rw [hvalue] at hparams
          rw [hparams]
          rfl
      refine .cons (tests_field hrow hpair hc hfinite.1 hparam) ?_
      rw [Nat.add_right_comm]
      exact ih hcompares hfinite.2 hrest

/-- The clause of a condition on the body can be evaluated over every row whose
body is an object, and is true if and only if every pair of the condition
holds of the body. -/
theorem eval_clause (server : Server) {pairs : List (String × Cell)} {primaryKey : String}
    {p : Predicate} (h : (byFields pairs).compile primaryKey = .ok p) (hbody : p.target = .body)
    (hfinite : ∀ pair ∈ pairs, ∀ x, pair.2 = .float x → x.isFinite = true)
    {members : Json.Members} {row : Row} (hrow : row "body" = some (.json (.obj members))) :
    ∃ clause d, read? p.clauseText = some clause ∧ clause.eval server row p.params = .ok d ∧
      (d = .bool true ↔ ∀ pair ∈ pairs, FieldHolds server (.obj members) pair) := by
  obtain ⟨fields, comparisons, hfields, hc⟩ := compile_eq_ok h
  obtain ⟨c, rest, rfl⟩ := List.exists_cons_of_ne_nil (hc.ne_nil hbody)
  have hcompares := hc.compares
  rw [hbody] at hcompares
  have htests : List.Forall₂ (Tests server row p.params) (Expr.numbered 1 (c :: rest))
      (pairs.map (FieldHolds server (.obj members))) :=
    tests_numbered hrow (forall₂_parses hfields) hcompares hfinite hc.params
  cases pairs with
  | nil => cases htests
  | cons pair pairs =>
    obtain ⟨hfirst, hothers⟩ := List.forall₂_cons.mp htests
    obtain ⟨d, hd, -, htrue⟩ := tests_all hfirst hothers
    refine ⟨_, d, read?_clause hc, hd, ?_⟩
    rw [htrue, List.forall_mem_cons, List.forall_mem_map]

/-- A number in an order, a field that is absent, and a text. -/
theorem eval_clause_three_fields :
    ∃ p clause d,
      (byFields [("a.b >=", .int 3), ("o'k", .null), ("t !=", .text "x")]).compile "id" = .ok p ∧
      p.target = .body ∧ read? p.clauseText = some clause ∧
      clause.eval Server.plain
        (fun name => if name = "body" then some (.json (.obj [
          ("a", .obj [("b", .num (.ofInt64 5))]), ("o'k", .null), ("t", .str "y")])) else none)
        p.params = .ok d ∧
      d = .bool true := by
  let pairs : List (String × Cell) := [("a.b >=", .int 3), ("o'k", .null), ("t !=", .text "x")]
  let members : Json.Members :=
    [("a", .obj [("b", .num (.ofInt64 5))]), ("o'k", .null), ("t", .str "y")]
  have hroute : (byFields pairs).route "id" = .ok (.body [
      .holds (.guarded ["a", "b"] "number" "numeric") .gtEq (.int 3) false,
      .isNull (.field ["o'k"] true) false,
      .holds (.field ["t"] true) .notEq (.text "x") false]) := by cbv
  have hcompile : (byFields pairs).compile "id" = _ := congrArg (Except.map Route.predicate) hroute
  have hfinite : ∀ pair ∈ pairs, ∀ x, pair.2 = .float x → x.isFinite = true := by
    simp [pairs]
  let row : Row := fun name => if name = "body" then some (.json (.obj members)) else none
  have hrow : row "body" = some (.json (.obj members)) := rfl
  obtain ⟨clause, d, hread, heval, htrue⟩ := eval_clause Server.plain hcompile rfl hfinite hrow
  refine ⟨_, clause, d, hcompile, rfl, hread, heval, htrue.mpr ?_⟩
  simp only [pairs, List.forall_mem_cons]
  refine ⟨⟨⟨"a.b", some .gtEq⟩, ["a", "b"], by cbv, by cbv, .ofInt64 5, rfl, ?_⟩,
    ⟨⟨"o'k", none⟩, ["o'k"], by cbv, by cbv, .inr rfl⟩,
    ⟨⟨"t", some .notEq⟩, ["t"], by cbv, by cbv, .str "y", rfl, by simp, ?_⟩, by simp⟩
  · decide
  · show "y" ≠ "x"
    decide

end Condition

end DocStore
