import DocStore.Proofs.Condition.Structure
import DocStore.Proofs.Expr.Legible
import DocStore.Proofs.Patch.Assignment
import DocStore.Proofs.Sending
import DocStore.Proofs.Sql.Template

/-!
# Statements are read as their templates

Every statement that is built from the names of tables, functions and
collections, from the path of a patch or from search keys is read as its
template, by the rules of quoting, whatever text these are. A template
whose words hold quotes of their own is first brought into pieces without
(`Spells`); the rest is that the pieces are legible.

Main statement: `builtFromTemplates`.
-/

namespace DocStore

open Sql (Piece Lexeme Ends Legible ends_nil lexemes lex)
open Template (words)

/-! ## Pieces that spell lexemes -/

/-- The text of the pieces is that of some legible pieces with these lexemes. -/
def Sql.Spells (sql : Sql) (tokens : List Lexeme) : Prop :=
  ∃ sql', Sql.chars sql' = sql.chars ∧ Legible sql' ∧ lexemes sql' = tokens

@[simp] theorem lexemes_text (s : String) : Piece.lexemes (.text s) = words s := rfl

@[simp] theorem lexemes_name (s : String) : Piece.lexemes (.name s) = [.name s] := rfl

@[simp] theorem lexemes_literal (s : String) : Piece.lexemes (.literal s) = [.literal s] := rfl

@[simp] theorem lexemes_placeholder (n : Nat) : Piece.lexemes (.placeholder n) = [.placeholder n] :=
  rfl

/-- Words end what stands before them. -/
theorem ends_text {s : String} {c : Char} {cs : List Char} (hs : s.toList = c :: cs)
    (hc : c ≠ '"' ∧ c ≠ '\'' ∧ c.isDigit = false) (rest : Sql) :
    Ends (Sql.chars (.text s :: rest)) := by
  rw [Sql.chars_cons, Piece.chars, hs]
  rintro d ⟨⟩
  exact hc

namespace Sql.Spells

variable {a b : Sql} {ta tb : List Lexeme}

theorem of_legible (h : Legible a) : a.Spells (lexemes a) := ⟨a, rfl, h, rfl⟩

theorem lex (h : a.Spells ta) : Sql.lex a.chars = some ta := by
  obtain ⟨sql, hchars, hlegible, rfl⟩ := h
  rw [← hchars, lex_chars hlegible]

theorem append (ha : a.Spells ta) (hb : b.Spells tb) (hends : Ends b.chars) :
    Sql.Spells (a ++ b) (ta ++ tb) := by
  obtain ⟨sqla, hca, hla, rfl⟩ := ha
  obtain ⟨sqlb, hcb, hlb, rfl⟩ := hb
  refine ⟨sqla ++ sqlb, ?_, hla.append hlb (hcb ▸ hends), lexemes_append _ _⟩
  rw [Sql.chars_append, Sql.chars_append, hca, hcb]

/-- Words before anything else. -/
theorem text {s : String} (hs : ∀ c ∈ s.toList, Ordinary c) (h : a.Spells ta) :
    Sql.Spells (.text s :: a) (words s ++ ta) := by
  obtain ⟨sql, hchars, hlegible, rfl⟩ := h
  refine ⟨.text s :: sql, ?_, ⟨hs, hlegible⟩, lexemes_cons _ _⟩
  rw [Sql.chars_cons, Sql.chars_cons, hchars]

/-- Words with a constant among them. -/
theorem split (s before inside after : String)
    (hs : s.toList = before.toList ++ (Piece.literal inside).chars ++ after.toList)
    (hbefore : ∀ c ∈ before.toList, Ordinary c) (hafter : ∀ c ∈ after.toList, Ordinary c)
    (hends : ∀ rest, Ends (Sql.chars (.text after :: rest))) (h : a.Spells ta) :
    Sql.Spells (.text s :: a) (words before ++ (.literal inside :: (words after ++ ta))) := by
  obtain ⟨sql, hchars, hlegible, rfl⟩ := h
  refine ⟨.text before :: .literal inside :: .text after :: sql, ?_,
    ⟨hbefore, ?_, hafter, hlegible⟩, ?_⟩
  · rw [Sql.chars_cons, Sql.chars_cons, Sql.chars_cons, Sql.chars_cons, hchars]
    show before.toList ++ ((Piece.literal inside).chars ++ (after.toList ++ a.chars)) =
      s.toList ++ a.chars
    rw [hs, List.append_assoc, List.append_assoc]
  · exact hends _
  · rw [lexemes_cons, lexemes_cons, lexemes_cons]
    rfl

/-- Parts joined by words. -/
theorem joined {sep : String} {tsep : List Lexeme} {parts : List Sql} {tokens : List (List Lexeme)}
    (hsep : ∀ {a : Sql} {ta : List Lexeme}, a.Spells ta → Sql.Spells (.text sep :: a) (tsep ++ ta))
    (hends : ∀ rest, Ends (Sql.chars (.text sep :: rest)))
    (h : List.Forall₂ Sql.Spells parts tokens) :
    (Sql.joined sep parts).Spells (tsep.intercalate tokens) := by
  induction h with
  | nil => exact of_legible trivial
  | cons hpart hparts ih =>
    cases hparts with
    | nil => simpa [List.intercalate, Sql.joined] using hpart
    | cons =>
      rw [List.intercalate_cons_cons, List.append_assoc, Sql.joined]
      · exact hpart.append (hsep ih) (hends _)
      · simp

end Sql.Spells

namespace Statement

/-- The statement is read as these lexemes, and what it has placeholders for are
its parameters. -/
structure ReadsAs (s : Statement) (tokens : List Lexeme) : Prop where
  lexed : lex s.sql.toList = some tokens
  placeholders : ∀ n, .placeholder n ∈ tokens ↔ 1 ≤ n ∧ n ≤ s.params.length

theorem readsAs_of_spells {sql : Sql} {tokens : List Lexeme} (h : sql.Spells tokens)
    {params : List Cell} {single : Bool}
    (hparams : ∀ n, .placeholder n ∈ tokens ↔ 1 ≤ n ∧ n ≤ params.length) :
    (ofSql sql params single).ReadsAs tokens where
  lexed := by
    have hsql : (ofSql sql params single).sql.toList = sql.chars := String.toList_ofList
    rw [hsql]
    exact h.lex
  placeholders := hparams

theorem ReadsAs.without_params {sql : Sql} {tokens : List Lexeme} (h : sql.Spells tokens)
    (hnone : ∀ n, Lexeme.placeholder n ∉ tokens) : (ofSql sql [] false).ReadsAs tokens := by
  refine readsAs_of_spells h fun n => iff_of_false (hnone n) ?_
  rintro ⟨hpos, hle⟩
  exact absurd hle (Nat.not_le.mpr hpos)

end Statement

/-! ## Names -/

theorem spells_entity (defaultSchema schema name : String) :
    (Sql.qualified defaultSchema schema name).Spells
      (Template.entity defaultSchema schema name) := by
  unfold Sql.qualified Template.entity
  split
  · exact .of_legible ⟨ends_nil, trivial⟩
  · exact .of_legible ⟨ends_text rfl (by decide) _, by decide, ends_nil, trivial⟩

/-- Under one default schema a name in a statement belongs to one schema and
one name. -/
theorem render_qualified_inj {defaultSchema schema name schema' name' : String}
    (h : (Sql.qualified defaultSchema schema name).render =
      (Sql.qualified defaultSchema schema' name').render) : schema = schema' ∧ name = name' := by
  have hchars := String.ofList_injective h
  have htokens : some (Template.entity defaultSchema schema name) =
      some (Template.entity defaultSchema schema' name') := by
    rw [← (spells_entity _ schema name).lex, ← (spells_entity _ schema' name').lex, hchars]
  simp only [Template.entity, Option.some.injEq] at htokens
  by_cases hs : schema = defaultSchema <;> by_cases hs' : schema' = defaultSchema <;>
    simp_all

/-! ## Saving -/

section Save

variable (t : Table)

theorem spells_insertion : t.insertSql.Spells (Template.insertion t) := by
  have hrest : Legible [.text " (", .name t.primaryKey, .text ", body) values (", .placeholder 1,
      .text ", ", .placeholder 2, .text ") returning *"] :=
    ⟨by decide, ends_text rfl (by decide) _, by decide, ends_text rfl (by decide) _, by decide,
      ends_text rfl (by decide) _, by decide, trivial⟩
  have h := ((spells_entity t.settings.defaultSchema t.schema t.name).text
    (s := "insert into ") (by decide)).append (.of_legible hrest) (ends_text rfl (by decide) _)
  simpa [Template.insertion, Template.table, Table.insertSql, Table.sqlName] using h

theorem spells_update {assigned : Sql} {tokens : List Lexeme} (h : assigned.Spells tokens) :
    (Patch.updateSql t.sqlName t.primaryKey assigned).Spells (Template.update t tokens) := by
  have hrest : Legible [.text " where ", .name t.primaryKey, .text " = ", .placeholder 1,
      .text " returning *"] :=
    ⟨by decide, ends_text rfl (by decide) _, by decide, ends_text rfl (by decide) _, by decide,
      trivial⟩
  have hset := ((spells_entity t.settings.defaultSchema t.schema t.name).text
    (s := "update ") (by decide)).append (h.text (s := " set body = ") (by decide))
      (ends_text rfl (by decide) _)
  have hall := hset.append (.of_legible hrest) (ends_text rfl (by decide) _)
  simpa [Template.update, Template.table, Patch.updateSql, Table.sqlName] using hall

theorem lexemes_ensure (e : Jsonb.Expr) (parent : List String) :
    lexemes (Patch.ensure e parent).sql = Template.grown (lexemes e.sql) parent := by
  simp [Patch.ensure, Jsonb.Expr.sql, Jsonb.Expr.argsSql, Jsonb.Expr.moreArgsSql,
    Jsonb.Expr.asPath, Jsonb.Expr.asJson, Jsonb.Expr.getOr, Jsonb.Op.symbol, Template.grown, words]

theorem lexemes_withParents (segments : List String) :
    lexemes (Patch.withParents segments).sql = Template.withParents segments :=
  (List.foldl_hom (fun e : Jsonb.Expr => lexemes e.sql) fun e parent =>
    (lexemes_ensure e parent).symm).symm

theorem lexemes_assignment (segments : List String) (p : Patch) :
    lexemes (p.assignment segments).sql = Template.patchAt segments p := by
  match p with
  | .write .set _ _ | .write .insert _ _ | .write .push _ _ =>
    simp [Patch.assignment, Patch.pathParam, Patch.valueParam, Patch.appended, Jsonb.Expr.sql,
      Jsonb.Expr.argsSql, Jsonb.Expr.moreArgsSql, Jsonb.Expr.asPath, Jsonb.Expr.asJson,
      Jsonb.Expr.getOr, Jsonb.Op.symbol, lexemes_withParents, Template.patchAt, words]
  | .remove _ =>
    simp [Patch.assignment, Patch.pathParam, Jsonb.Expr.sql, Jsonb.Expr.asPath, Jsonb.Op.symbol,
      Template.patchAt, words]

theorem spells_assignment (segments : List String) (p : Patch) :
    (p.assignment segments).sql.Spells (Template.patchAt segments p) := by
  rw [← lexemes_assignment]
  exact .of_legible (Patch.writable_assignment segments p).legible

end Save

/-! ## Searching -/

theorem lexemes_arrows : ∀ segments : List String,
    lexemes (DocPath.arrows true segments) = Template.arrows segments
  | [] => rfl
  | [key] => rfl
  | key :: next :: rest => by
    rw [arrows_cons_cons, Sql.lexemes_cons, Sql.lexemes_cons, lexemes_arrows (next :: rest)]
    rfl

theorem spells_field (key : String) :
    (DocPath.field (DocPath.parts key) true).Spells (Template.field key) := by
  have htokens : lexemes (DocPath.field (DocPath.parts key) true) = Template.field key := by
    simp [DocPath.field, lexemes_arrows, Template.field]
  rw [← htokens]
  exact .of_legible legible_field

theorem spells_fields {keys : List String} {fields : List Sql}
    (h : keys.mapM (fun key => do return DocPath.field (← DocPath.segments key) true) =
      (.ok fields : Except Refusal (List Sql))) :
    List.Forall₂ Sql.Spells fields (keys.map Template.field) := by
  rw [List.forall₂_map_right_iff]
  refine (mapM_eq_ok h).flip.imp fun field key hfield => ?_
  obtain ⟨segments, hsegments, hfield⟩ := bind_eq_ok hfield
  cases hfield
  rw [← (DocPath.segments_eq_ok_iff.mp hsegments).2]
  exact spells_field key

theorem spells_concat {fields : List Sql} {tokens : List (List Lexeme)}
    (h : List.Forall₂ Sql.Spells fields tokens) :
    Sql.Spells (.text "concat(" :: Sql.joined ", ' ', " fields ++ [.text ")"])
      (words "concat(" ++ List.intercalate (words ", " ++ [.literal " "] ++ words ", ") tokens
        ++ words ")") := by
  have hjoined : (Sql.joined ", ' ', " fields).Spells
      (List.intercalate (words ", " ++ [.literal " "] ++ words ", ") tokens) := by
    refine .joined (fun h => ?_) (ends_text rfl (by decide)) h
    simpa using Sql.Spells.split ", ' ', " ", " " " ", " rfl (by decide) (by decide)
      (ends_text rfl (by decide)) h
  have hclose : Legible [.text ")"] := ⟨by decide, trivial⟩
  simpa using (hjoined.text (s := "concat(") (by decide)).append (.of_legible hclose)
    (ends_text rfl (by decide) _)

theorem spells_searched {keys : List String} {searched : Sql}
    (h : Table.searchedSql keys = .ok searched) : searched.Spells (Template.searched keys) := by
  unfold Table.searchedSql at h
  unfold Template.searched
  split at h
  · rename_i hall
    cases h
    rw [if_pos hall]
    exact .of_legible ⟨by decide, trivial⟩
  · rename_i hall
    rw [if_neg hall]
    obtain ⟨fields, hfields, h⟩ := bind_eq_ok h
    have hspells := spells_fields hfields
    -- one field stands alone
    match keys, fields, hspells with
    | [], [], hspells =>
      cases h
      exact spells_concat hspells
    | [key], [field], .cons hfield _ =>
      cases h
      exact hfield
    | key :: next :: keys, field :: field' :: fields, hspells =>
      cases h
      exact spells_concat hspells

theorem spells_search (t : Table) {keys : List String} {searched : Sql}
    (h : Table.searchedSql keys = .ok searched) :
    (t.searchSql searched).Spells (Template.search t keys) := by
  have hterm : Sql.Spells [.text ") @@ to_tsquery('simple', ", .placeholder 1, .text ")"]
      (words ") @@ to_tsquery(" ++ (.literal "simple" :: (words ", " ++
        lexemes [.placeholder 1, .text ")"]))) :=
    .split _ _ _ _ rfl (by decide) (by decide) (ends_text rfl (by decide))
      (.of_legible ⟨ends_text rfl (by decide) _, by decide, trivial⟩)
  have hsearched := Sql.Spells.split " where to_tsvector('simple', " " where to_tsvector("
    "simple" ", " rfl (by decide) (by decide) (ends_text rfl (by decide)) (spells_searched h)
  have hselect := (spells_entity t.settings.defaultSchema t.schema t.name).text
    (s := "select * from ") (by decide)
  have hall := (hselect.append hsearched (ends_text rfl (by decide) _)).append hterm
    (ends_text rfl (by decide) _)
  simpa [Template.search, Template.table, Table.searchSql, Table.sqlName] using hall

/-! ## Creating -/

theorem collection_eq_ok {defaultSchema name : String} {d : TableDescriptor}
    (h : Database.collection defaultSchema name = .ok d) :
    d = ⟨(Template.collectionKey defaultSchema name).schema,
      (Template.collectionKey defaultSchema name).name, none⟩ := by
  unfold Database.collection at h
  unfold Template.collectionKey
  cases hcut : Text.cut? "." name with
  | none =>
    rw [hcut] at h
    dsimp only at h
    split at h
    · cases h
    · cases h
      rfl
  | some parts =>
    rw [hcut] at h
    dsimp only at h
    split at h
    · cases h
    · cases h
      rfl

section Creation

variable (defaultSchema : String) (d : TableDescriptor)

theorem spells_schemaSql : Sql.Spells [.text "create schema if not exists ", .name d.schema]
    (words "create schema if not exists " ++ [.name d.schema]) := by
  have hlegible : Legible [.text "create schema if not exists ", .name d.schema] :=
    ⟨by decide, ends_nil, trivial⟩
  simpa using Sql.Spells.of_legible hlegible

theorem spells_tableSql : (Database.tableSql defaultSchema d).Spells
    (words "create table if not exists " ++ Template.entity defaultSchema d.schema d.name
      ++ words " (id text primary key, body jsonb not null)") := by
  have hcolumns : Legible [.text " (id text primary key, body jsonb not null)"] :=
    ⟨by decide, trivial⟩
  have hname := (spells_entity defaultSchema d.schema d.name).text
    (s := "create table if not exists ") (by decide)
  simpa [Database.tableSql] using hname.append (.of_legible hcolumns) (ends_text rfl (by decide) _)

theorem spells_indexSql : (Database.indexSql defaultSchema d).Spells
    (words "create index if not exists "
      ++ [.name (searchIndexName (qualifiedName defaultSchema d.schema d.name))]
      ++ words " on " ++ Template.entity defaultSchema d.schema d.name
      ++ words " using gin (to_tsvector(" ++ [.literal "simple"] ++ words ", body::text))") := by
  have hindex : Legible [.text "create index if not exists ",
      .name (searchIndexName (qualifiedName defaultSchema d.schema d.name))] :=
    ⟨by decide, ends_nil, trivial⟩
  have htable := (spells_entity defaultSchema d.schema d.name).text (s := " on ") (by decide)
  have hgin : Sql.Spells [.text " using gin (to_tsvector('simple', body::text))"]
      (words " using gin (to_tsvector(" ++ (.literal "simple" ::
        (words ", body::text))" ++ lexemes []))) :=
    .split _ _ _ _ rfl (by decide) (by decide) (ends_text rfl (by decide)) (.of_legible trivial)
  simpa [Database.indexSql] using ((Sql.Spells.of_legible hindex).append htable
    (ends_text rfl (by decide) _)).append hgin (ends_text rfl (by decide) _)

theorem readsAs_creation :
    List.Forall₂ (fun sql tokens => (Statement.ofSql sql [] false).ReadsAs tokens)
      (Database.creation defaultSchema d)
      (Template.creation defaultSchema ⟨d.schema, d.name⟩) := by
  have hcreates : List.Forall₂ (fun sql tokens => (Statement.ofSql sql [] false).ReadsAs tokens)
      [Database.tableSql defaultSchema d, Database.indexSql defaultSchema d] [_, _] :=
    .cons (.without_params (spells_tableSql defaultSchema d) (by simp))
      (.cons (.without_params (spells_indexSql defaultSchema d) (by simp)) .nil)
  unfold Database.creation Database.schemaSql Template.creation
  split
  · exact hcreates
  · exact .cons (.without_params (spells_schemaSql d) (by simp)) hcreates

end Creation

/-! ## Calling -/

theorem spells_invocation (f : Function) : f.sql.Spells (Template.invocation f) := by
  have hargs : List.Forall₂ Sql.Spells f.placeholders
      ((List.range f.paramCount).map fun n => [.placeholder (n + 1)]) := by
    rw [Function.placeholders, List.forall₂_map_left_iff, List.forall₂_map_right_iff,
      List.forall₂_same]
    exact fun n _ => .of_legible ⟨ends_nil, trivial⟩
  have hjoined : (Sql.joined "," f.placeholders).Spells ((words ",").intercalate
      ((List.range f.paramCount).map fun n => [.placeholder (n + 1)])) :=
    .joined (fun h => h.text (by decide)) (ends_text rfl (by decide)) hargs
  have hclose : Legible [.text ")"] := ⟨by decide, trivial⟩
  have hname := (spells_entity f.settings.defaultSchema f.schema f.name).text
    (s := "select * from ") (by decide)
  have hopen := hname.append (hjoined.text (s := "(") (by decide)) (ends_text rfl (by decide) _)
  have hall := hopen.append (.of_legible hclose) (ends_text rfl (by decide) _)
  simpa [Template.invocation, Function.sql] using hall

/-! ## Every statement -/

namespace Statement

theorem readsAs_insertion (t : Table) (id : Cell) (body : Json.Members) :
    (t.insertion id body).ReadsAs (Template.insertion t) := by
  refine readsAs_of_spells (spells_insertion t) fun n => ?_
  simp [Template.insertion]
  omega

theorem readsAs_replacement {t : Table} {id : Cell} {body : Json.Members} {s : Statement}
    (h : t.updating id body = .ok s) (hpatch : Patch.ofUpdate body = .ok none) :
    s.ReadsAs (Template.update t Template.replacement) := by
  rw [Table.updating, hpatch] at h
  cases h
  have hassigned : Sql.Spells [.placeholder 2] Template.replacement :=
    .of_legible (a := [.placeholder 2]) ⟨ends_nil, trivial⟩
  refine readsAs_of_spells (spells_update t hassigned) fun n => ?_
  simp [Template.update, Template.replacement]
  omega

theorem readsAs_patch {t : Table} {p : Patch} {id : Cell} {sql : Sql} {params : List Cell}
    (h : p.statement t.sqlName t.primaryKey id = .ok (sql, params)) (single : Bool) :
    (ofSql sql params single).ReadsAs (Template.update t (Template.patch p)) := by
  obtain ⟨segments, hsegments, h⟩ := bind_eq_ok h
  cases h
  rw [← (DocPath.segments_eq_ok_iff.mp hsegments).2]
  exact readsAs_of_spells (spells_update t (spells_assignment _ p)) fun n =>
    Template.mem_patch_iff t p id _

theorem readsAs_patched {t : Table} {id : Cell} {body : Json.Members} {s : Statement} {p : Patch}
    (h : t.updating id body = .ok s) (hpatch : Patch.ofUpdate body = .ok (some p)) :
    s.ReadsAs (Template.update t (Template.patch p)) := by
  obtain ⟨p', hpatch', h⟩ := bind_eq_ok h
  rw [hpatch] at hpatch'
  cases hpatch'
  obtain ⟨⟨sql, params⟩, hstatement, h⟩ := bind_eq_ok h
  cases h
  exact readsAs_patch hstatement true

theorem readsAs_search (t : Table) {keys : List String} {searched : Sql}
    (h : Table.searchedSql keys = .ok searched) (term : String) :
    (ofSql (t.searchSql searched) [.text term] false).ReadsAs (Template.search t keys) := by
  refine readsAs_of_spells (spells_search t h) fun n => ?_
  simp [Template.search]
  omega

theorem readsAs_invocation {f : Function} {args : List Cell} (h : args.length = f.paramCount) :
    (ofSql f.sql args false).ReadsAs (Template.invocation f) := by
  refine readsAs_of_spells (spells_invocation f) fun n => ?_
  rw [Template.mem_invocation_iff, h]

theorem readsAs_creationTexts {db : Database} {name : String} {texts : List String}
    (h : db.creationTexts name = .ok texts) :
    List.Forall₂ (fun text tokens => ReadsAs ⟨text, [], false⟩ tokens) texts
      (Template.creation db.config.defaultSchema
        (Template.collectionKey db.config.defaultSchema name)) := by
  obtain ⟨d, hd, h⟩ := bind_eq_ok h
  cases h
  rw [collection_eq_ok hd, List.forall₂_map_left_iff]
  exact readsAs_creation _ _

end Statement

/-- What is sent, or written out for a collection, is read as a template of what
it is built from. -/
structure BuiltFromTemplates : Prop where
  insert : ∀ {σ : Type} (host : Host σ) (t : Table) document,
    Call.SendsOne host (·.ReadsAs (Template.insertion t)) (t.save .insert document)
  /-- An update without a patch replaces the body. -/
  replace : ∀ {σ : Type} (host : Host σ) (t : Table) fields,
    Patch.ofUpdate (Entries.erase t.primaryKey fields) = .ok none →
      Call.SendsOne host (·.ReadsAs (Template.update t Template.replacement))
        (t.save .update (.obj fields))
  update : ∀ {σ : Type} (host : Host σ) (t : Table) fields p,
    Patch.ofUpdate (Entries.erase t.primaryKey fields) = .ok (some p) →
      Call.SendsOne host (·.ReadsAs (Template.update t (Template.patch p)))
        (t.save .update (.obj fields))
  /-- The update of a patch, also by itself. -/
  patch : ∀ (p : Patch) (t : Table) id sql params,
    p.statement t.sqlName t.primaryKey id = .ok (sql, params) →
      (Statement.ofSql sql params true).ReadsAs (Template.update t (Template.patch p))
  search : ∀ {σ : Type} (host : Host σ) (t : Table) keys term,
    Call.SendsOne host (·.ReadsAs (Template.search t keys)) (t.search keys term)
  create : ∀ (db : Database) name texts, db.creationTexts name = .ok texts →
    List.Forall₂ (fun text tokens => Statement.ReadsAs ⟨text, [], false⟩ tokens) texts
      (Template.creation db.config.defaultSchema
        (Template.collectionKey db.config.defaultSchema name))
  invoke : ∀ {σ : Type} (host : Host σ) (f : Function) args,
    Call.SendsOne host (·.ReadsAs (Template.invocation f)) (f.invoke args)
  /-- Under one default schema no two entities have the same name in statements. -/
  name_inj : ∀ defaultSchema schema name schema' name',
    (Sql.qualified defaultSchema schema name).render =
      (Sql.qualified defaultSchema schema' name').render → schema = schema' ∧ name = name'

/-- Whatever names, paths and keys a statement is built from, it is read as its
template. -/
theorem builtFromTemplates : BuiltFromTemplates where
  insert host t document := by
    apply Call.sendsOne_save
    · exact fun _ fields _ id => Statement.readsAs_insertion t id _
    · rintro ⟨⟩
  replace host t fields hpatch := by
    apply Call.sendsOne_save
    · rintro ⟨⟩
    · rintro - fields' ⟨⟩ id s hs
      exact Statement.readsAs_replacement hs hpatch
  update host t fields p hpatch := by
    apply Call.sendsOne_save
    · rintro ⟨⟩
    · rintro - fields' ⟨⟩ id s hs
      exact Statement.readsAs_patched hs hpatch
  patch p t id sql params h := Statement.readsAs_patch h true
  search host t keys term := Call.sendsOne_search fun _ h => Statement.readsAs_search t h term
  create db name texts h := Statement.readsAs_creationTexts h
  invoke host f args := Call.sendsOne_invoke Statement.readsAs_invocation
  name_inj _ _ _ _ _ h := render_qualified_inj h

end DocStore
