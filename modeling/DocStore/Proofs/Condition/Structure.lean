import DocStore.Proofs.Condition.Compiled
import DocStore.Proofs.Sql.Lexeme

/-!
# The structure of a clause

The clause of a compiled condition, taken apart by the rules of quoting,
has the placeholders of its parameters in order, and in its quotes the
primary key, keys of paths and names of types. What is outside of the
quotes is known from the operators, the kinds of the values and the
numbers of keys alone (`form`), so no text of a key changes it.

All of this is first said of the pieces of one comparison. The fragments
of a clause are independent of each other but for the ordinals, and an
ordinal is used up exactly where a value is bound.

Main statement: `lex_clause`.
-/

namespace DocStore

open Sql (Piece Lexeme Ordinary Ends Legible ends_nil lexemes lex)

/-! ## Operands -/

section Paths

variable {segments : List String} {asText : Bool}

theorem arrows_cons_cons (key next : String) (rest : List String) :
    DocPath.arrows asText (key :: next :: rest) =
      .text " -> " :: .literal key :: DocPath.arrows asText (next :: rest) := rfl

theorem ends_arrows : Ends (Sql.chars (DocPath.arrows asText segments)) := by
  match segments with
  | [] => exact ends_nil
  | [key] =>
    cases asText <;>
    · rintro c ⟨⟩
      decide
  | key :: next :: rest =>
    rintro c ⟨⟩
    decide

theorem legible_arrows : ∀ {segments : List String}, Legible (DocPath.arrows asText segments)
  | [] => trivial
  | [key] => by cases asText <;> exact ⟨by decide, ends_nil, trivial⟩
  | key :: next :: rest => ⟨by decide, ends_arrows, legible_arrows⟩

theorem legible_field : Legible (DocPath.field segments asText) := by
  have hclose : Legible [.text ")"] := ⟨by decide, trivial⟩
  have hends : Ends (Sql.chars [.text ")"]) := by
    rintro c ⟨⟩
    decide
  exact ⟨by decide, legible_arrows.append hclose hends⟩

theorem mem_arrows {p : Piece} : ∀ {segments : List String}, p ∈ DocPath.arrows asText segments →
    (∃ s, p = .text s) ∨ ∃ s ∈ segments, p = .literal s
  | [key], h => by
    rw [DocPath.arrows, List.mem_cons, List.mem_singleton] at h
    rcases h with rfl | rfl
    · exact .inl ⟨_, rfl⟩
    · exact .inr ⟨key, by simp, rfl⟩
  | key :: next :: rest, h => by
    rw [arrows_cons_cons, List.mem_cons, List.mem_cons] at h
    rcases h with rfl | rfl | h
    · exact .inl ⟨_, rfl⟩
    · exact .inr ⟨key, by simp, rfl⟩
    · rcases mem_arrows h with h | ⟨s, hs, h⟩
      · exact .inl h
      · exact .inr ⟨s, List.mem_cons_of_mem _ hs, h⟩

theorem mem_field {p : Piece} (h : p ∈ DocPath.field segments asText) :
    (∃ s, p = .text s) ∨ ∃ s ∈ segments, p = .literal s := by
  rw [DocPath.field, List.mem_append, List.mem_cons, List.mem_singleton] at h
  rcases h with (rfl | h) | rfl
  · exact .inl ⟨_, rfl⟩
  · exact mem_arrows h
  · exact .inl ⟨_, rfl⟩

theorem map_erased_arrows : ∀ {segments segments' : List String},
    segments.length = segments'.length →
    (DocPath.arrows asText segments).map Piece.erased =
      (DocPath.arrows asText segments').map Piece.erased
  | [], [], _ => rfl
  | [_], [_], _ => rfl
  | key :: next :: rest, key' :: next' :: rest', h => by
    have hlength : (next :: rest).length = (next' :: rest').length := by simpa using h
    simp only [arrows_cons_cons key, arrows_cons_cons key', List.map_cons,
      map_erased_arrows hlength, Piece.erased]

theorem map_erased_field {segments' : List String} (h : segments.length = segments'.length) :
    (DocPath.field segments asText).map Piece.erased =
      (DocPath.field segments' asText).map Piece.erased := by
  simp only [DocPath.field, List.map_append, List.map_cons, map_erased_arrows h]

end Paths

namespace Operand

/-- The field is cast only to the type that its JSON type stands for. -/
def Typed : Operand → Prop
  | .guarded _ jsonType sqlType =>
    (jsonType = "number" ∧ sqlType = "numeric") ∨ (jsonType = "boolean" ∧ sqlType = "boolean")
  | _ => True

def segments : Operand → List String
  | .column _ => []
  | .field segments _ => segments
  | .guarded segments _ _ => segments

theorem mem_sql {lhs : Operand} (h : lhs.Typed) {p : Piece} (hp : p ∈ lhs.sql) :
    (∃ s, p = .text s) ∨ (∃ s, lhs = .column s ∧ p = .name s) ∨
      ∃ s, p = .literal s ∧ (s = "number" ∨ s = "boolean" ∨ s ∈ lhs.segments) := by
  have field : ∀ {segments asText}, p ∈ DocPath.field segments asText →
      (∃ s, p = .text s) ∨ ∃ s, p = .literal s ∧ s ∈ segments := by
    intro segments asText hp
    rcases mem_field hp with hp | ⟨s, hs, rfl⟩
    · exact .inl hp
    · exact .inr ⟨s, rfl, hs⟩
  cases lhs with
  | column name => exact .inr (.inl ⟨name, rfl, List.mem_singleton.mp hp⟩)
  | field segments asText =>
    rcases field hp with hp | ⟨s, rfl, hs⟩
    · exact .inl hp
    · exact .inr (.inr ⟨s, rfl, .inr (.inr hs)⟩)
  | guarded segments jsonType sqlType =>
    simp only [sql, List.mem_append, List.mem_cons, List.not_mem_nil, or_false] at hp
    rcases hp with (((rfl | hp) | rfl | rfl | rfl) | hp) | rfl
    · exact .inl ⟨_, rfl⟩
    · rcases field hp with hp | ⟨s, rfl, hs⟩
      · exact .inl hp
      · exact .inr (.inr ⟨s, rfl, .inr (.inr hs)⟩)
    · exact .inl ⟨_, rfl⟩
    · exact .inr (.inr ⟨jsonType, rfl, h.imp And.left fun h => .inl h.1⟩)
    · exact .inl ⟨_, rfl⟩
    · rcases field hp with hp | ⟨s, rfl, hs⟩
      · exact .inl hp
      · exact .inr (.inr ⟨s, rfl, .inr (.inr hs)⟩)
    · exact .inl ⟨_, rfl⟩

theorem legible_sql {lhs : Operand} (h : lhs.Typed) : Legible lhs.sql := by
  cases lhs with
  | column name => exact ⟨ends_nil, trivial⟩
  | field segments asText => exact legible_field
  | guarded segments jsonType sqlType =>
    have hend : Legible [.text ("::" ++ sqlType ++ " end)")] ∧
        Ends (Sql.chars [.text ("::" ++ sqlType ++ " end)")]) := by
      rcases h with ⟨rfl, rfl⟩ | ⟨rfl, rfl⟩ <;>
      · refine ⟨⟨by decide, trivial⟩, ?_⟩
        rintro c ⟨⟩
        decide
    have htest : Legible [.text ") = ", .literal jsonType, .text " then "] ∧
        Ends (Sql.chars [.text ") = ", .literal jsonType, .text " then "]) := by
      refine ⟨⟨by decide, ?_, by decide, trivial⟩, ?_⟩ <;>
      · rintro c ⟨⟩
        decide
    have hcase : Legible (.text "(case when jsonb_typeof(" :: DocPath.field segments false) :=
      ⟨by decide, legible_field⟩
    refine ((hcase.append htest.1 htest.2).append legible_field ?_).append hend.1 hend.2
    rintro c ⟨⟩
    decide

theorem map_erased_guarded {segments segments' : List String}
    (h : segments.length = segments'.length) (jsonType sqlType : String) :
    (guarded segments jsonType sqlType).sql.map Piece.erased =
      (guarded segments' jsonType sqlType).sql.map Piece.erased := by
  simp only [sql, List.map_append, List.map_cons, map_erased_field h]

/-- There is no placeholder in an operand. -/
theorem filterMap_ordinal?_sql {lhs : Operand} (h : lhs.Typed) :
    lhs.sql.filterMap Piece.ordinal? = [] := by
  rw [List.filterMap_eq_nil_iff]
  intro p hp
  rcases mem_sql h hp with ⟨s, rfl⟩ | ⟨s, -, rfl⟩ | ⟨s, rfl, -⟩ <;> rfl

end Operand

/-! ## Fragments -/

namespace Fragment

/-- The fragment in writing, with the ordinal of its placeholder, if it has one. -/
def sqlAt (next : Nat) : Fragment → Sql
  | .free sql => sql
  | .bound _ write => write (.placeholder next)

def value? : Fragment → Option Cell
  | .free _ => none
  | .bound value _ => some value

theorem values_eq_filterMap (fragments : List Fragment) :
    values fragments = fragments.filterMap value? := by
  induction fragments with
  | nil => rfl
  | cons f rest ih =>
    rw [List.filterMap_cons, ← ih]
    cases f <;> rfl

theorem numbered_cons (next : Nat) (f : Fragment) (rest : List Fragment) :
    numbered next (f :: rest) = f.sqlAt next :: numbered (next + f.value?.toList.length) rest := by
  cases f <;> rfl

theorem mem_numbered {sql : Sql} : ∀ {fragments : List Fragment} {next : Nat},
    sql ∈ numbered next fragments → ∃ f ∈ fragments, ∃ n, sql = f.sqlAt n
  | f :: rest, next, h => by
    rw [numbered_cons, List.mem_cons] at h
    rcases h with rfl | h
    · exact ⟨f, by simp, next, rfl⟩
    · obtain ⟨g, hg, n, rfl⟩ := mem_numbered h
      exact ⟨g, List.mem_cons_of_mem _ hg, n, rfl⟩

/-- If the only placeholder of a fragment is that of its value, then all of
them together have one ordinal after the other. -/
theorem ordinals_numbered : ∀ {fragments : List Fragment} {next : Nat},
    (∀ f ∈ fragments, ∀ n, (f.sqlAt n).filterMap Piece.ordinal? = f.value?.toList.map fun _ => n) →
      (numbered next fragments).flatMap (·.filterMap Piece.ordinal?) =
        List.range' next (values fragments).length
  | [], _, _ => rfl
  | f :: rest, next, h => by
    rw [List.forall_mem_cons] at h
    rw [numbered_cons, List.flatMap_cons, h.1, ordinals_numbered h.2, values_eq_filterMap,
      values_eq_filterMap, List.filterMap_cons]
    cases f.value? with
    | none => rfl
    | some value => exact (List.range'_succ ..).symm

/-- The fragments are the same outside of quotes, and both bind a value or
neither does. -/
def Alike (f g : Fragment) : Prop :=
  f.value?.isSome = g.value?.isSome ∧
    ∀ n, (f.sqlAt n).map Piece.erased = (g.sqlAt n).map Piece.erased

theorem map_erased_numbered {fs gs : List Fragment} (h : List.Forall₂ Alike fs gs) :
    ∀ next, (numbered next fs).map (·.map Piece.erased) =
      (numbered next gs).map (·.map Piece.erased) := by
  induction h with
  | nil => exact fun _ => rfl
  | @cons f g fs gs hfg _ ih =>
    intro next
    have hnext : f.value?.toList.length = g.value?.toList.length := by
      have hsome := hfg.1
      cases hf : f.value? <;> cases hg : g.value? <;> rw [hf, hg] at hsome <;>
        first | rfl | cases hsome
    rw [numbered_cons, numbered_cons, List.map_cons, List.map_cons, hfg.2, hnext, ih]

end Fragment

/-! ## Comparisons -/

namespace Comparison

def lhs : Comparison → Operand
  | .isNull lhs _ => lhs
  | .holds lhs _ _ _ => lhs

/-- What is written after the operand. -/
def rest (n : Nat) : Comparison → Sql
  | .isNull _ negated => [.text (if negated then " is not null" else " is null")]
  | .holds _ operator _ asJson =>
    .text (" " ++ operator.sql ++ " ") :: .placeholder n ::
      (if asJson then [.text "::jsonb"] else [])

theorem sqlAt_fragment (c : Comparison) (n : Nat) : c.fragment.sqlAt n = c.lhs.sql ++ c.rest n := by
  cases c with
  | isNull => rfl
  | holds => simp [fragment, Fragment.sqlAt, lhs, rest]

theorem legible_rest (c : Comparison) (n : Nat) :
    Legible (c.rest n) ∧ Ends (Sql.chars (c.rest n)) := by
  cases c with
  | isNull lhs negated =>
    cases negated <;>
    · refine ⟨⟨by decide, trivial⟩, ?_⟩
      rintro c ⟨⟩
      decide
  | holds lhs operator value asJson =>
    have hjson : Ends (Sql.chars (if asJson then [.text "::jsonb"] else [])) ∧
        Legible (if asJson then [.text "::jsonb"] else []) := by
      cases asJson with
      | false => exact ⟨ends_nil, trivial⟩
      | true =>
        refine ⟨?_, by decide, trivial⟩
        rintro c ⟨⟩
        decide
    have hop : (∀ c ∈ (" " ++ operator.sql ++ " ").toList, Ordinary c) ∧
        Ends (" " ++ operator.sql ++ " ").toList := by
      cases operator <;>
      · refine ⟨by decide, ?_⟩
        rintro c ⟨⟩
        decide
    refine ⟨⟨hop.1, hjson.1, hjson.2⟩, ?_⟩
    cases operator <;>
    · rintro c ⟨⟩
      decide

theorem legible_fragment {c : Comparison} (h : c.lhs.Typed) (n : Nat) :
    Legible (c.fragment.sqlAt n) := by
  rw [sqlAt_fragment]
  exact (Operand.legible_sql h).append (c.legible_rest n).1 (c.legible_rest n).2

theorem ordinals_fragment {c : Comparison} (h : c.lhs.Typed) (n : Nat) :
    (c.fragment.sqlAt n).filterMap Piece.ordinal? = c.fragment.value?.toList.map fun _ => n := by
  rw [sqlAt_fragment, List.filterMap_append, Operand.filterMap_ordinal?_sql h]
  cases c with
  | isNull lhs negated => rfl
  | holds lhs operator value asJson => cases asJson <;> rfl

/-- The quoted pieces of a comparison are those of its operand. -/
theorem mem_fragment {c : Comparison} {n : Nat} {p : Piece} (h : p ∈ c.fragment.sqlAt n) :
    p ∈ c.lhs.sql ∨ (∃ s, p = .text s) ∨ p = .placeholder n := by
  rw [sqlAt_fragment, List.mem_append] at h
  rcases h with h | h
  · exact .inl h
  · cases c with
    | isNull lhs negated => exact .inr (.inl ⟨_, List.mem_singleton.mp h⟩)
    | holds lhs operator value asJson =>
      rw [rest, List.mem_cons, List.mem_cons] at h
      rcases h with rfl | rfl | h
      · exact .inr (.inl ⟨_, rfl⟩)
      · exact .inr (.inr rfl)
      · cases asJson with
        | false => cases h
        | true => exact .inr (.inl ⟨_, List.mem_singleton.mp h⟩)

end Comparison

/-! ## Fields -/

namespace Condition

/-- The parameter of a field. A null value has none, and to be equal to a
number or boolean of the body is a matter of JSON. -/
def bound (target : Target) (field : Key × Cell) : Option Cell :=
  match field.2 with
  | .null => none
  | .text s => some (.text s)
  | .json j => some (.json j)
  | value =>
    some (if target = .body && !field.1.effective.isOrdering then .json value.toJson else value)

/-- All that the text of a field's comparison hangs on, but for what is quoted:
the operator, the kind of the value and, in the body, the number of keys. -/
def form (target : Target) (field : Key × Cell) : Operator × String × Nat :=
  (field.1.effective, field.2.typeName,
    if target = .body then (DocPath.parts field.1.property).length else 0)

section Fields

open Comparison

variable {target : Target} {primaryKey primaryKey' : String} {field field' : Key × Cell}
  {c c' : Comparison}

/-- The operand at which a field is compared. -/
def operand (target : Target) (primaryKey : String) (field : Key × Cell) : Operand :=
  match target with
  | .body => fieldOperand (DocPath.parts field.1.property) field.1.effective field.2
  | _ => .column primaryKey

def cell (target : Target) (field : Key × Cell) : Cell :=
  match target with
  | .body => fieldCell field.1.effective field.2
  | _ => field.2

def asJson (target : Target) (field : Key × Cell) : Bool :=
  match target with
  | .body => comparesJson field.1.effective field.2
  | _ => false

theorem of_of_compares (h : Compares target primaryKey field c) :
    of (operand target primaryKey field) field.1.effective (cell target field)
      (asJson target field) = .ok c := by
  cases target with
  | body =>
    rw [Compares, ofField_eq] at h
    obtain ⟨segments, hsegments, h⟩ := bind_eq_ok h
    obtain ⟨-, rfl⟩ := DocPath.segments_eq_ok_iff.mp hsegments
    exact h
  | all | column => exact h.2

theorem isNull_cell (target : Target) (field : Key × Cell) :
    (cell target field).isNull = field.2.isNull := by
  cases target with
  | body => exact isNull_fieldCell ..
  | all | column => rfl

theorem lhs_of_compares (h : Compares target primaryKey field c) :
    c.lhs = operand target primaryKey field := by
  rcases of_eq_ok (of_of_compares h) with ⟨-, negated, -, rfl⟩ | ⟨-, rfl⟩ <;> rfl

theorem typed_operand (target : Target) (primaryKey : String) (field : Key × Cell) :
    (operand target primaryKey field).Typed := by
  obtain ⟨key, value⟩ := field
  cases target with
  | all | column => trivial
  | body =>
    show (fieldOperand _ key.effective value).Typed
    cases value with
    | null | text | json => trivial
    | int | float | bool =>
      cases h : key.effective.isOrdering <;> simp [fieldOperand, h, Operand.Typed]

theorem eq_column_of_operand {name : String} (h : operand target primaryKey field = .column name) :
    name = primaryKey := by
  obtain ⟨key, value⟩ := field
  cases target with
  | all | column =>
    cases h
    rfl
  | body =>
    cases value with
    | null | text | json => cases h
    | int | float | bool =>
      simp only [operand, fieldOperand] at h
      split at h <;> cases h

theorem segments_operand : (operand target primaryKey field).segments ⊆
    DocPath.parts field.1.property := by
  obtain ⟨key, value⟩ := field
  cases target with
  | all | column => exact List.nil_subset _
  | body =>
    show (fieldOperand _ key.effective value).segments ⊆ _
    cases value with
    | null | text | json => exact List.Subset.refl _
    | int | float | bool =>
      cases h : key.effective.isOrdering <;> simp [fieldOperand, h, Operand.segments]

theorem value?_of_compares (h : Compares target primaryKey field c) :
    c.fragment.value? = bound target field := by
  have hnull := isNull_cell target field
  obtain ⟨key, value⟩ := field
  rcases of_eq_ok (of_of_compares h) with ⟨hcell, negated, -, rfl⟩ | ⟨hcell, rfl⟩
  · rw [hcell] at hnull
    cases value <;> first | rfl | cases hnull
  · show some (cell target (key, value)) = bound target (key, value)
    rw [hcell] at hnull
    cases target <;> cases value <;> first | rfl | cases hnull
    all_goals cases h : key.effective.isOrdering <;> simp [cell, fieldCell, bound, h]

theorem map_erased_operand (h : form target field = form target field') :
    (operand target primaryKey field).sql.map Piece.erased =
      (operand target primaryKey' field').sql.map Piece.erased := by
  obtain ⟨key, value⟩ := field
  obtain ⟨key', value'⟩ := field'
  simp only [form, Prod.mk.injEq] at h
  obtain ⟨hoperator, hkind, hlength⟩ := h
  cases target with
  | all | column => rfl
  | body =>
    have hlength : (DocPath.parts key.property).length = (DocPath.parts key'.property).length := by
      simpa using hlength
    simp only [operand, hoperator]
    cases value <;> cases value' <;> simp [Cell.typeName] at hkind
    case null.null | text.text | json.json => exact map_erased_field hlength
    all_goals
      cases hordering : key'.effective.isOrdering <;>
        simp only [fieldOperand, hordering, if_true, Bool.false_eq_true, if_false]
      · exact map_erased_field hlength
      · exact Operand.map_erased_guarded hlength ..

theorem asJson_eq (h : form target field = form target field') :
    asJson target field = asJson target field' ∧ field.2.isNull = field'.2.isNull := by
  obtain ⟨key, value⟩ := field
  obtain ⟨key', value'⟩ := field'
  simp only [form, Prod.mk.injEq] at h
  obtain ⟨hoperator, hkind, -⟩ := h
  cases value <;> cases value' <;> simp [Cell.typeName] at hkind
  all_goals cases target <;> simp [asJson, comparesJson, hoperator, Cell.isNull]

/-- Fields of the same form become comparisons that differ in quotes only. -/
theorem alike_of_compares (h : Compares target primaryKey field c)
    (h' : Compares target primaryKey' field' c') (hform : form target field = form target field') :
    c.fragment.Alike c'.fragment := by
  have hoperand : (operand target primaryKey field).sql.map Piece.erased =
      (operand target primaryKey' field').sql.map Piece.erased := map_erased_operand hform
  obtain ⟨hjson, hnull⟩ := asJson_eq hform
  have hoperator : field.1.effective = field'.1.effective := congrArg Prod.fst hform
  rw [← isNull_cell target, ← isNull_cell target] at hnull
  have hc := of_eq_ok (of_of_compares h)
  have hc' := of_eq_ok (of_of_compares h')
  rw [hjson, hoperator] at hc
  rcases hc with ⟨hcell, negated, hop, rfl⟩ | ⟨hcell, rfl⟩ <;>
    rcases hc' with ⟨hcell', negated', hop', rfl⟩ | ⟨hcell', rfl⟩
  · refine ⟨rfl, fun n => ?_⟩
    have hnegated : negated = negated' := by
      rw [hop] at hop'
      cases negated <;> cases negated' <;> first | rfl | cases hop'
    rw [sqlAt_fragment, sqlAt_fragment, List.map_append, List.map_append, lhs, lhs, hoperand,
      hnegated]
    rfl
  · rw [hcell, hcell'] at hnull
    cases hnull
  · rw [hcell, hcell'] at hnull
    cases hnull
  · refine ⟨rfl, fun n => ?_⟩
    rw [sqlAt_fragment, sqlAt_fragment, List.map_append, List.map_append, lhs, lhs, hoperand]
    rfl

end Fields

/-! ## Clauses -/

section Clauses

open Comparison

variable {target : Target} {primaryKey primaryKey' : String}

theorem values_of_compares {fields : List (Key × Cell)} {comparisons : List Comparison}
    (h : List.Forall₂ (Compares target primaryKey) fields comparisons) :
    Fragment.values (comparisons.map Comparison.fragment) = fields.filterMap (bound target) := by
  rw [Fragment.values_eq_filterMap]
  induction h with
  | nil => rfl
  | cons hc _ ih =>
    rw [List.map_cons, List.filterMap_cons, value?_of_compares hc, ih, List.filterMap_cons]

theorem exists_field {fields : List (Key × Cell)} {comparisons : List Comparison}
    (h : List.Forall₂ (Compares target primaryKey) fields comparisons) :
    ∀ c ∈ comparisons, ∃ field ∈ fields, c.lhs = operand target primaryKey field := by
  intro c hc
  obtain ⟨field, hfield, hcompares⟩ := exists_of_forall₂ h.flip hc
  exact ⟨field, hfield, lhs_of_compares hcompares⟩

theorem forall₂_alike {fields fields' : List (Key × Cell)}
    {comparisons comparisons' : List Comparison}
    (h : List.Forall₂ (Compares target primaryKey) fields comparisons)
    (h' : List.Forall₂ (Compares target primaryKey') fields' comparisons')
    (hform : fields.map (form target) = fields'.map (form target)) :
    List.Forall₂ Fragment.Alike (comparisons.map Comparison.fragment)
      (comparisons'.map Comparison.fragment) := by
  induction h generalizing fields' comparisons' with
  | nil =>
    cases h' with
    | nil => exact .nil
    | cons => cases hform
  | cons hc _ ih =>
    cases h' with
    | nil => cases hform
    | cons hc' h' =>
      rw [List.map_cons, List.map_cons, List.cons.injEq] at hform
      exact .cons (alike_of_compares hc hc' hform.1) (ih h' hform.2)

/-- The lexemes of a clause are those of its pieces. -/
theorem lex_of_conjoins {fields : List (Key × Cell)} {comparisons : List Comparison}
    {p : Predicate} (h : Conjoins primaryKey fields comparisons p) :
    lex p.clauseText.toList = some (lexemes p.clause) := by
  rw [Predicate.clauseText, Sql.render, String.toList_ofList]
  apply Sql.lex_chars
  rw [h.clause]
  apply Sql.legible_joined (by decide)
  · rintro rest c ⟨⟩
    decide
  · intro part hpart
    obtain ⟨f, hf, n, rfl⟩ := Fragment.mem_numbered hpart
    obtain ⟨c, hc, rfl⟩ := List.mem_map.mp hf
    obtain ⟨field, -, hlhs⟩ := exists_field h.compares c hc
    exact legible_fragment (hlhs ▸ typed_operand ..) n

theorem ordinals_of_conjoins {fields : List (Key × Cell)} {comparisons : List Comparison}
    {p : Predicate} (h : Conjoins primaryKey fields comparisons p) :
    (lexemes p.clause).filterMap Lexeme.ordinal? = List.range' 1 p.params.length := by
  rw [Sql.filterMap_ordinal?_lexemes, h.clause, Sql.filterMap_ordinal?_joined, h.params]
  apply Fragment.ordinals_numbered
  intro f hf n
  obtain ⟨c, hc, rfl⟩ := List.mem_map.mp hf
  obtain ⟨field, -, hlhs⟩ := exists_field h.compares c hc
  exact ordinals_fragment (hlhs ▸ typed_operand ..) n

/-- A quoted piece of a clause is a quoted piece of an operand. -/
theorem exists_operand {fields : List (Key × Cell)} {comparisons : List Comparison}
    {p : Predicate} (h : Conjoins primaryKey fields comparisons p) {piece : Piece}
    (hpiece : piece ∈ p.clause) :
    (∃ s, piece = .text s) ∨ (∃ n, piece = .placeholder n) ∨
      ∃ field ∈ fields, piece ∈ (operand p.target primaryKey field).sql := by
  rw [h.clause] at hpiece
  rcases Sql.mem_joined hpiece with rfl | ⟨part, hpart, hpiece⟩
  · exact .inl ⟨_, rfl⟩
  · obtain ⟨f, hf, n, rfl⟩ := Fragment.mem_numbered hpart
    obtain ⟨c, hc, rfl⟩ := List.mem_map.mp hf
    obtain ⟨field, hfield, hlhs⟩ := exists_field h.compares c hc
    rcases mem_fragment hpiece with hpiece | hpiece | rfl
    · exact .inr (.inr ⟨field, hfield, hlhs ▸ hpiece⟩)
    · exact .inl hpiece
    · exact .inr (.inl ⟨n, rfl⟩)

end Clauses

/-- The placeholders of a clause are those of its parameters, in order; each
quoted text is the primary key, a key of a path or a fixed type; the rest is
the same for all conditions with the same target and fields of the same form. -/
theorem lex_clause {condition : Condition} {primaryKey : String} {p : Predicate}
    (h : condition.compile primaryKey = .ok p) :
    ∃ fields clause, condition.entries primaryKey = .ok fields ∧
      lex p.clauseText.toList = some clause ∧
      clause.filterMap Lexeme.ordinal? = List.range' 1 p.params.length ∧
      p.params = fields.filterMap (bound p.target) ∧
      (∀ s, .name s ∈ clause → s = primaryKey) ∧
      (∀ s, .literal s ∈ clause →
        s = "number" ∨ s = "boolean" ∨ ∃ field ∈ fields, s ∈ DocPath.parts field.1.property) ∧
      ∀ (condition' : Condition) (primaryKey' : String) (p' : Predicate) fields' clause',
        condition'.compile primaryKey' = .ok p' →
        condition'.entries primaryKey' = .ok fields' →
        lex p'.clauseText.toList = some clause' →
        p'.target = p.target → fields'.map (form p.target) = fields.map (form p.target) →
          clause'.map Lexeme.erased = clause.map Lexeme.erased := by
  obtain ⟨fields, comparisons, hfields, hc⟩ := compile_eq_ok h
  refine ⟨fields, lexemes p.clause, hfields, lex_of_conjoins hc, ordinals_of_conjoins hc,
    hc.params.trans (values_of_compares hc.compares), ?_, ?_, ?_⟩
  · intro s hs
    rcases exists_operand hc (Sql.name_mem_lexemes hs) with ⟨_, ⟨⟩⟩ | ⟨_, ⟨⟩⟩ | ⟨field, hfield, hs⟩
    rcases Operand.mem_sql (typed_operand ..) hs with ⟨_, ⟨⟩⟩ | ⟨name, hcolumn, ⟨⟩⟩ | ⟨_, ⟨⟩, -⟩
    exact eq_column_of_operand hcolumn
  · intro s hs
    rcases exists_operand hc (Sql.literal_mem_lexemes hs) with
      ⟨_, ⟨⟩⟩ | ⟨_, ⟨⟩⟩ | ⟨field, hfield, hs⟩
    rcases Operand.mem_sql (typed_operand ..) hs with ⟨_, ⟨⟩⟩ | ⟨_, _, ⟨⟩⟩ | ⟨_, ⟨⟩, hs⟩
    exact hs.imp_right (.imp_right fun hs => ⟨field, hfield, segments_operand hs⟩)
  · intro condition' primaryKey' p' fields' clause' h' hfields' hclause' htarget hform
    obtain ⟨fields₂, comparisons', hfields₂, hc'⟩ := compile_eq_ok h'
    rw [hfields'] at hfields₂
    cases hfields₂
    rw [lex_of_conjoins hc'] at hclause'
    cases hclause'
    have hcompares' := hc'.compares
    rw [htarget] at hcompares'
    have halike := forall₂_alike hcompares' hc.compares hform
    rw [Sql.map_erased_lexemes, Sql.map_erased_lexemes, hc'.clause, hc.clause,
      Sql.map_erased_joined, Sql.map_erased_joined, Fragment.map_erased_numbered halike]

/-- Quotes, a dollar sign and an `and` in keys stay inside of constants. -/
theorem lex_clause_hostile_keys :
    ∃ p clause,
      (byFields [("o'neil.\"$5 >", .int 3), ("' and '", .null)]).compile "i\"d" = .ok p ∧
      lex p.clauseText.toList = some clause ∧
      clause.filterMap Lexeme.ordinal? = [1] ∧ p.params = [.int 3] ∧
      ∀ s, .literal s ∈ clause → s ∈ ["number", "boolean", "o'neil", "\"$5", "' and '"] := by
  let condition := byFields [("o'neil.\"$5 >", .int 3), ("' and '", .null)]
  have hroute : condition.route "i\"d" = .ok (.body [
      .holds (.guarded ["o'neil", "\"$5"] "number" "numeric") .gt (.int 3) false,
      .isNull (.field ["' and '"] true) false]) := by cbv
  have hentries : condition.entries "i\"d" =
      .ok [(⟨"o'neil.\"$5", some .gt⟩, .int 3), (⟨"' and '", none⟩, .null)] := by cbv
  have h : condition.compile "i\"d" = _ := congrArg (Except.map Route.predicate) hroute
  obtain ⟨fields, clause, hfields, hlex, hordinals, -, -, hliterals, -⟩ := lex_clause h
  rw [hentries] at hfields
  cases hfields
  refine ⟨_, clause, h, hlex, hordinals, rfl, fun s hs => ?_⟩
  have hparts : DocPath.parts "o'neil.\"$5" = ["o'neil", "\"$5"] := by cbv
  have hparts' : DocPath.parts "' and '" = ["' and '"] := by cbv
  rcases hliterals s hs with rfl | rfl | ⟨field, hfield, hs⟩
  · simp
  · simp
  · rw [List.mem_cons, List.mem_singleton] at hfield
    rcases hfield with rfl | rfl
    · rw [hparts, List.mem_cons, List.mem_singleton] at hs
      rcases hs with rfl | rfl <;> simp
    · rw [hparts', List.mem_singleton] at hs
      rw [hs]
      simp

end Condition

end DocStore
