import DocStore.Proofs.Condition.Meaning
import DocStore.Proofs.Save
import DocStore.Proofs.Sending

/-!
# The primary key among other fields

A field that names the primary key is compared with its column if it is
the only one, and with the body if there are others. But a save keeps
the key out of the body. So a row is found by its id alone, and by no
list of fields that has the id among them: the comparison with a field
that is absent is never true, and neither is a conjunction with it.

Main statement: `not_found_with_key`.
-/

namespace DocStore

open Clause (Row Server Expr)

/-! ## Keys that are plain names -/

/-- Without dots and operators, and blank at neither end. -/
def PlainName (name : String) : Prop :=
  (∀ c ∈ name.toList, c ≠ '.' ∧ c ≠ '<' ∧ c ≠ '>' ∧ c ≠ '=') ∧ Text.trim name = name

section Names

variable {name : String} (hplain : PlainName name)

include hplain

theorem parse_plain (hne : name ≠ "") : Key.parse name = .ok ⟨name, none⟩ := by
  have hfirst : Operator.first? name.toList = none :=
    Operator.first?_eq_none_of_free fun c hc => (hplain.1 c hc).2
  have htrim : Chars.trim name.toList = name.toList := by
    have h := congrArg String.toList hplain.2
    rwa [Text.trim, String.toList_ofList] at h
  have hchars : name.toList ≠ [] := fun h => hne (String.toList_eq_nil_iff.mp h)
  rw [Key.parse, hfirst]
  show Key.named name name.toList none = _
  rw [Key.named, htrim, if_neg hchars, String.ofList_toList]

theorem segments_plain (hne : name ≠ "") : DocPath.segments name = .ok [name] := by
  have hparts : DocPath.parts name = [name] := by
    have hdot : '.' ∉ name.toList := fun h => (hplain.1 '.' h).1 rfl
    rw [DocPath.parts, Text.splitOn, Chars.splitOn_of_not_mem hdot]
    simp [hplain.2]
  rw [DocPath.segments, hparts, if_neg (by simpa using hne.symm)]

end Names

/-! ## Stored rows -/

/-- The row is stored by a save that sends the text as the id and the members as
the body: an insertion or an update of the whole body. -/
def Table.SavesRow (t : Table) (row : Row) (id : String) : Prop :=
  ∃ (σ : Type) (host : Host σ) (state : σ) (operation : SaveOperation) (document : Json)
    (statement : Statement) (members : Json.Members),
    (Call.run host (t.save operation document) state).sent = [statement] ∧
    statement.params = [.text id, .json (.obj members)] ∧
    row t.primaryKey = some (.text id) ∧ row "body" = some (.json (.obj members))

/-- The key is not in the body of a stored row. -/
theorem Table.SavesRow.body {t : Table} {row : Row} {id : String} (h : t.SavesRow row id) :
    ∃ members, row "body" = some (.json (.obj members)) ∧
      Entries.get? t.primaryKey members = none := by
  obtain ⟨σ, host, state, operation, document, statement, members, hsent, hparams, -, hbody⟩ := h
  refine ⟨members, hbody, ?_⟩
  have herased : ∀ fields, .json (.obj (Entries.erase t.primaryKey fields)) =
      Cell.json (.obj members) → Entries.get? t.primaryKey members = none := by
    rintro fields ⟨⟩
    rw [Entries.get?_erase, if_pos rfl]
  -- A patch has its path, a text, as the second parameter.
  have hsends : Call.SendsOne host (fun s => s.params = [.text id, .json (.obj members)] →
      Entries.get? t.primaryKey members = none) (t.save operation document) := by
    refine Call.sendsOne_save ?_ ?_
    · rintro - fields - id' h
      exact herased fields (List.cons.inj (List.cons.inj h).2).1
    · rintro - fields - id' s hs h
      rcases updating_cases hs with ⟨-, rfl⟩ | ⟨patch, segments, -, -, rfl⟩
      · exact herased fields (List.cons.inj (List.cons.inj h).2).1
      · cases patch <;> cases h
  rcases hsends state with ⟨s, hs, hnone⟩ | ⟨hnothing, -⟩
  · rw [hsent] at hs
    cases hs
    exact hnone hparams
  · rw [hsent] at hnothing
    cases hnothing

/-! ## Conjunctions -/

/-- The row is among those that a predicate selects. -/
def Predicate.Selects (server : Server) (row : Row) (p : Predicate) : Prop :=
  p.isMatchAll = true ∨
    ∃ clause, Clause.read? p.clauseText = some clause ∧
      clause.eval server row p.params = .ok (.bool true)

namespace Clause

variable {server : Server} {row : Row} {params : List Cell}

theorem read?_empty : read? "" = none := by cbv

theorem both_eq_true {d d' : Datum} (h : both d d' = .ok (.bool true)) :
    d = .bool true ∧ d' = .bool true := by
  unfold both at h
  split at h
  · rename_i a b
    cases a <;> cases b <;> cases h
    exact ⟨rfl, rfl⟩
  · rename_i a
    cases a <;> cases h
  · rename_i b
    cases b <;> cases h
  · cases h
  · cases h

/-- A conjunction is true only if all of its parts are. -/
theorem eval_all_eq_true : ∀ {rest : List Expr} {e : Expr},
    (Expr.all e rest).eval server row params = .ok (.bool true) →
    ∀ f ∈ e :: rest, f.eval server row params = .ok (.bool true)
  | [], e, h, f, hf => by
    cases List.mem_singleton.mp hf
    exact h
  | g :: rest, e, h, f, hf => by
    -- The first two parts are the first part of a shorter conjunction.
    have hall := eval_all_eq_true (e := .binary .both e g) h
    have hboth := hall _ List.mem_cons_self
    rw [Expr.eval] at hboth
    obtain ⟨d, hd, hboth⟩ := bind_eq_ok hboth
    obtain ⟨d', hd', hboth⟩ := bind_eq_ok hboth
    obtain ⟨rfl, rfl⟩ := both_eq_true hboth
    rcases List.mem_cons.mp hf with rfl | hf
    · exact hd
    · rcases List.mem_cons.mp hf with rfl | hf
      · exact hd'
      · exact hall f (List.mem_cons_of_mem _ hf)

theorem mem_numbered {c : Comparison} : ∀ {comparisons : List Comparison} (next : Nat),
    c ∈ comparisons → ∃ n, .ofComparison n c ∈ Expr.numbered next comparisons
  | c' :: rest, next, h => by
    rcases List.mem_cons.mp h with rfl | h
    · exact ⟨next, List.mem_cons_self⟩
    · obtain ⟨n, hn⟩ := mem_numbered _ h
      exact ⟨n, List.mem_cons_of_mem _ hn⟩

/-- A comparison with a field that is absent is not true. -/
theorem eval_absent {members : Json.Members} {key : String}
    (hrow : row "body" = some (.json (.obj members))) (habsent : Entries.get? key members = none)
    (n : Nat) (operator : Operator) (value : Cell) :
    (Expr.ofComparison n (.holds (.field [key] true) operator value false)).eval server row params ≠
      .ok (.bool true) := by
  have hfield : Json.field? [key] (.obj members) = none := by
    show Option.bind (Entries.get? key members) _ = none
    rw [habsent, Option.bind_none]
  have hleft : (Expr.field [key] true).eval server row params = .ok .null := by
    rw [eval_field hrow (by simp), hfield]
    rfl
  intro h
  -- Whatever the parameter is, the comparison with null is null.
  change (Expr.binary (.compare operator) (.field [key] true) (.param n)).eval server row params =
    _ at h
  rw [Expr.eval, hleft] at h
  obtain ⟨d, -, h⟩ := bind_eq_ok (x := parameter params n) h
  cases h

end Clause

/-! ## Several fields -/

namespace Condition

section Compiling

variable {primaryKey : String} {p : Predicate}

/-- What can be compared at all can be compared with the body, since the key is a
path there. -/
theorem exists_ofField {target : Target} {field : Key × Cell} {c : Comparison}
    (hplain : PlainName primaryKey) (hne : primaryKey ≠ "")
    (h : Compares target primaryKey field c) :
    ∃ c', Comparison.ofField field.1 field.2 = .ok c' := by
  have hcolumn : field.1.property = primaryKey ∧
      Comparison.of (.column primaryKey) field.1.effective field.2 false = .ok c →
      ∃ c', Comparison.ofField field.1 field.2 = .ok c' := by
    rintro ⟨hkey, hc⟩
    rw [Comparison.ofField_eq, hkey, segments_plain hplain hne]
    show ∃ c', Comparison.of _ _ _ _ = .ok c'
    rw [Comparison.exists_of_iff, Comparison.isNull_fieldCell]
    exact Comparison.exists_of_iff.mp ⟨c, hc⟩
  cases target with
  | body => exact ⟨c, h⟩
  | all => exact hcolumn h
  | column => exact hcolumn h

/-- Several fields are all compared with the body. -/
theorem compile_of_several {pairs : List (String × Cell)} (h : 2 ≤ pairs.length) :
    (byFields pairs).compile primaryKey =
      (parsedFields pairs >>= Route.ofBody).map Route.predicate := by
  show (parsedFields pairs >>= Route.ofParsed primaryKey).map Route.predicate = _
  cases hfields : parsedFields pairs with
  | error r => rfl
  | ok fields =>
    have hlength : 2 ≤ fields.length := (forall₂_parses hfields).length_eq ▸ h
    match fields, hlength with
    | f :: g :: rest, _ => rfl

theorem target_of_several {pairs : List (String × Cell)} (h : 2 ≤ pairs.length)
    (hp : (byFields pairs).compile primaryKey = .ok p) : p.target = .body := by
  rw [compile_of_several h] at hp
  obtain ⟨route, hroute, rfl⟩ := map_eq_ok hp
  obtain ⟨fields, hfields, hroute⟩ := bind_eq_ok hroute
  obtain ⟨comparisons, hcomparisons, hroute⟩ := bind_eq_ok hroute
  cases hroute
  have hlength : 2 ≤ comparisons.length :=
    (mapM_eq_ok hcomparisons).length_eq ▸ (forall₂_parses hfields).length_eq ▸ h
  match comparisons, hlength with
  | c :: rest, _ => rfl

/-- The pair can be compared with the body. -/
def Comparable (pair : String × Cell) : Prop :=
  ∃ key c, Key.parse pair.1 = .ok key ∧ Comparison.ofField key pair.2 = .ok c

theorem comparable_of_compile {pairs : List (String × Cell)} (hplain : PlainName primaryKey)
    (hne : primaryKey ≠ "") (hp : (byFields pairs).compile primaryKey = .ok p) :
    ∀ pair ∈ pairs, Comparable pair := by
  obtain ⟨fields, comparisons, hfields, hconjoins⟩ := compile_eq_ok hp
  intro pair hpair
  obtain ⟨field, hfield, hkey, hvalue⟩ := exists_of_forall₂ (forall₂_parses hfields) hpair
  obtain ⟨c, -, hcompares⟩ := exists_of_forall₂ hconjoins.compares hfield
  obtain ⟨c', hc'⟩ := exists_ofField hplain hne hcompares
  exact ⟨field.1, c', hkey, hvalue ▸ hc'⟩

theorem exists_compile_of_several {pairs : List (String × Cell)} (h : 2 ≤ pairs.length)
    (hcomparable : ∀ pair ∈ pairs, Comparable pair) :
    ∃ p, (byFields pairs).compile primaryKey = .ok p := by
  obtain ⟨fields, hfields⟩ : ∃ fields, parsedFields pairs = .ok fields := by
    refine exists_mapM_eq_ok_iff.mpr fun pair hpair => ?_
    obtain ⟨key, -, hkey, -⟩ := hcomparable pair hpair
    exact ⟨(key, pair.2), by simp only [hkey]; rfl⟩
  obtain ⟨comparisons, hcomparisons⟩ :
      ∃ comparisons, fields.mapM (fun field => Comparison.ofField field.1 field.2) =
        .ok comparisons := by
    refine exists_mapM_eq_ok_iff.mpr fun field hfield => ?_
    obtain ⟨pair, hpair, hkey, hvalue⟩ := exists_of_forall₂ (forall₂_parses hfields).flip hfield
    obtain ⟨key, c, hkey', hc⟩ := hcomparable pair hpair
    rw [hkey] at hkey'
    cases hkey'
    exact ⟨c, hvalue ▸ hc⟩
  rw [compile_of_several h, hfields]
  show ∃ p, (Route.ofBody fields).map Route.predicate = .ok p
  rw [Route.ofBody, hcomparisons]
  exact ⟨_, rfl⟩

end Compiling

/-! ## The key and other fields -/

variable {t : Table} {row : Row} {id : String}

theorem ofField_key {primaryKey : String} (hplain : PlainName primaryKey) (hne : primaryKey ≠ "")
    (id : String) : Comparison.ofField ⟨primaryKey, none⟩ (.text id) =
      .ok (.holds (.field [primaryKey] true) .eq (.text id) false) := by
  rw [Comparison.ofField, segments_plain hplain hne]
  rfl

theorem ne_empty_of_parse {name : String} {key : Key} (h : Key.parse name = .ok key) :
    name ≠ "" := by
  rintro rfl
  cases h

/-- With the key among several fields the clause is never true of a stored row. -/
theorem not_selects_several (server : Server) (hplain : PlainName t.primaryKey)
    (hsaved : t.SavesRow row id) {pairs : List (String × Cell)} (hlength : 2 ≤ pairs.length)
    (hkey : (t.primaryKey, .text id) ∈ pairs) {p : Predicate}
    (hp : (byFields pairs).compile t.primaryKey = .ok p) : ¬ p.Selects server row := by
  obtain ⟨members, hbody, habsent⟩ := hsaved.body
  obtain ⟨fields, comparisons, hfields, hconjoins⟩ := compile_eq_ok hp
  have htarget := target_of_several hlength hp
  obtain ⟨c, rest, rfl⟩ := List.exists_cons_of_ne_nil (hconjoins.ne_nil htarget)
  obtain ⟨⟨key, value⟩, hfield, hparse, hvalue⟩ := exists_of_forall₂ (forall₂_parses hfields) hkey
  obtain ⟨c', hc', hcompares⟩ := exists_of_forall₂ hconjoins.compares hfield
  have hne := ne_empty_of_parse hparse
  rw [parse_plain hplain hne] at hparse
  cases hparse
  cases hvalue
  rw [htarget] at hcompares
  change Comparison.ofField _ _ = _ at hcompares
  rw [ofField_key hplain hne] at hcompares
  cases hcompares
  obtain ⟨n, hn⟩ := Clause.mem_numbered 1 hc'
  have hread := Clause.read?_clause hconjoins
  rintro (hall | ⟨clause, hclause, heval⟩)
  · rw [of_decide_eq_true hall, Clause.read?_empty] at hread
    cases hread
  · rw [hread] at hclause
    cases hclause
    exact Clause.eval_absent hbody habsent n _ _ (Clause.eval_all_eq_true heval _ hn)

theorem parsedFields_key {primaryKey : String} (hplain : PlainName primaryKey)
    (hne : primaryKey ≠ "") (value : Cell) :
    parsedFields [(primaryKey, value)] = .ok [(⟨primaryKey, none⟩, value)] := by
  simp only [parsedFields, List.mapM_cons, parse_plain hplain hne]
  rfl

/-- The key alone is looked up in its column, which holds the id. -/
theorem selects_key (server : Server) (hplain : PlainName t.primaryKey) (hne : t.primaryKey ≠ "")
    (hsaved : t.SavesRow row id) :
    ∃ p, (byFields [(t.primaryKey, .text id)]).compile t.primaryKey = .ok p ∧ p.lookup = true ∧
      p.Selects server row := by
  obtain ⟨-, -, -, -, -, -, -, -, -, hcolumn, -⟩ := hsaved
  let c : Comparison := .holds (.column t.primaryKey) .eq (.text id) false
  have hroute : (byFields [(t.primaryKey, .text id)]).route t.primaryKey =
      .ok (.column c true) := by
    rw [route, parsedFields_key hplain hne]
    show Route.ofParsed t.primaryKey [(⟨t.primaryKey, none⟩, .text id)] = _
    rw [Route.ofParsed, if_pos rfl]
    rfl
  have hcompile : (byFields [(t.primaryKey, .text id)]).compile t.primaryKey = _ :=
    congrArg (Except.map Route.predicate) hroute
  have hconjoins : Conjoins t.primaryKey [(⟨t.primaryKey, none⟩, .text id)] [c]
      (Route.column c true).predicate :=
    ⟨.cons ⟨rfl, rfl⟩ .nil, fun _ => List.cons_ne_nil _ _, rfl, rfl⟩
  refine ⟨_, hcompile, rfl, .inr ⟨_, Clause.read?_clause hconjoins, ?_⟩⟩
  show (Expr.binary (.compare .eq) (.column t.primaryKey) (.param 1)).eval server row [.text id] = _
  rw [Expr.eval, Expr.eval, hcolumn]
  show Except.ok (Clause.Datum.bool (Operator.eq.accepts (server.textOrder id id))) = _
  rw [server.textOrder_eq.mpr rfl]
  rfl

/-- A stored row is found by its id alone. In a list with other fields the id is
compared with the body, from which it is kept out, so the row is not found,
whatever the other fields are and wherever the id stands among them. -/
theorem not_found_with_key (server : Server) (hplain : PlainName t.primaryKey)
    (hsaved : t.SavesRow row id) {before after : List (String × Cell)} (hne : before ++ after ≠ [])
    {p : Predicate} (hp : (byFields (before ++ after)).compile t.primaryKey = .ok p) :
    (∀ p', (byFields (before ++ (t.primaryKey, .text id) :: after)).compile t.primaryKey = .ok p' →
      p'.target = .body ∧ ¬ p'.Selects server row) ∧
    (t.primaryKey ≠ "" →
      (∃ p', (byFields (before ++ (t.primaryKey, .text id) :: after)).compile t.primaryKey =
        .ok p') ∧
      ∃ p', (byFields [(t.primaryKey, .text id)]).compile t.primaryKey = .ok p' ∧
        p'.lookup = true ∧ p'.Selects server row) := by
  have hlength : 2 ≤ (before ++ (t.primaryKey, .text id) :: after).length := by
    have := List.length_pos_iff.mpr hne
    simp only [List.length_append, List.length_cons] at this ⊢
    omega
  have hmem : (t.primaryKey, .text id) ∈ before ++ (t.primaryKey, .text id) :: after := by simp
  refine ⟨fun p' hp' => ⟨target_of_several hlength hp', ?_⟩, fun hname => ⟨?_, ?_⟩⟩
  · exact not_selects_several server hplain hsaved hlength hmem hp'
  · refine exists_compile_of_several hlength fun pair hpair => ?_
    have hothers := comparable_of_compile hplain hname hp
    rcases List.mem_append.mp hpair with hpair | hpair
    · exact hothers pair (List.mem_append_left _ hpair)
    · rcases List.mem_cons.mp hpair with rfl | hpair
      · exact ⟨_, _, parse_plain hplain hname, ofField_key hplain hname id⟩
      · exact hothers pair (List.mem_append_right _ hpair)
  · exact selects_key server hplain hname hsaved

/-! ## A stored note -/

def noteTable : Table := ⟨"public", "notes", "id", ⟨"public", 1000⟩⟩

def noteRow : Row
  | "id" => some (.text "x")
  | "body" => some (.json (.obj [("a", .str "b")]))
  | _ => none

theorem savesRow_noteRow : noteTable.SavesRow noteRow "x" :=
  ⟨Unit, Host.silent, (), .insert, .obj [("a", .str "b"), ("id", .str "x")],
    noteTable.insertion (.text "x") [("a", .str "b")], [("a", .str "b")], rfl, rfl, rfl, rfl⟩

theorem plainName_id : PlainName "id" := by
  refine ⟨?_, by cbv⟩
  show ∀ c ∈ ['i', 'd'], c ≠ '.' ∧ c ≠ '<' ∧ c ≠ '>' ∧ c ≠ '='
  simp

/-- The comparison of a field with a text. -/
def hasText (key s : String) : Comparison := .holds (.field [key] true) .eq (.text s) false

theorem compile_note : (byFields [("a", .text "b")]).compile "id" =
    .ok (Route.body [hasText "a" "b"]).predicate := by
  have hroute : (byFields [("a", .text "b")]).route "id" = .ok (.body [hasText "a" "b"]) := by cbv
  exact congrArg (Except.map Route.predicate) hroute

theorem selects_note : (Route.body [hasText "a" "b"]).predicate.Selects Server.plain noteRow := by
  have hfield : Comparison.ofField ⟨"a", none⟩ (.text "b") = .ok (hasText "a" "b") := by cbv
  have hconjoins : Conjoins "id" [(⟨"a", none⟩, .text "b")] [hasText "a" "b"]
      (Route.body [hasText "a" "b"]).predicate :=
    ⟨.cons hfield .nil, fun _ => List.cons_ne_nil _ _, rfl, rfl⟩
  have hbody : noteRow "body" = some (.json (.obj [("a", .str "b")])) := rfl
  have hparam : [Cell.text "b"][0]? = some (.text "b") := rfl
  have hholds : Operator.eq.AsksText Server.plain (some (.str "b")) "b" := ⟨_, rfl, by simp, rfl⟩
  obtain ⟨d, hd, -, htrue⟩ := Clause.tests_text hbody (List.cons_ne_nil "a" []) hparam
  rw [htrue.mpr hholds] at hd
  exact .inr ⟨_, Clause.read?_clause hconjoins, hd⟩

theorem not_found_with_key_note :
    PlainName noteTable.primaryKey ∧ noteTable.SavesRow noteRow "x" ∧
    ∃ p', (byFields [("id", .text "x"), ("a", .text "b")]).compile "id" = .ok p' ∧
      p'.target = .body ∧ ¬ p'.Selects Server.plain noteRow := by
  have hne : [] ++ [("a", Cell.text "b")] ≠ [] := List.cons_ne_nil _ _
  have h := not_found_with_key Server.plain plainName_id savesRow_noteRow hne compile_note
  obtain ⟨p', hp'⟩ := (h.2 (by decide)).1
  exact ⟨plainName_id, savesRow_noteRow, p', hp', h.1 p' hp'⟩

/-- The note has the field, and is not found by the field together with its id. -/
theorem found_without_key :
    PlainName noteTable.primaryKey ∧ noteTable.SavesRow noteRow "x" ∧
    (∃ p, (byFields [("a", .text "b")]).compile noteTable.primaryKey = .ok p ∧
      p.Selects Server.plain noteRow) ∧
    ∃ p', (byFields [("a", .text "b"), ("id", .text "x")]).compile noteTable.primaryKey = .ok p' ∧
      ¬ p'.Selects Server.plain noteRow := by
  have hroute : (byFields [("a", .text "b"), ("id", .text "x")]).route "id" =
      .ok (.body [hasText "a" "b", hasText "id" "x"]) := by cbv
  have hcompile : (byFields [("a", .text "b"), ("id", .text "x")]).compile "id" = _ :=
    congrArg (Except.map Route.predicate) hroute
  refine ⟨plainName_id, savesRow_noteRow, ⟨_, compile_note, selects_note⟩, _, hcompile, ?_⟩
  exact not_selects_several Server.plain plainName_id savesRow_noteRow (by decide)
    (by simp [noteTable]) hcompile

end Condition

end DocStore
