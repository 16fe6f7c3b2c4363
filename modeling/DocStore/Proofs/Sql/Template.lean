import DocStore.Database.Collection
import DocStore.Proofs.Path.ArrayText
import DocStore.Proofs.Path.Parts
import DocStore.Proofs.Sql.Lexeme
import DocStore.Table.Find

/-!
# Templates of statements

What each statement is to be read as: the characters of its fixed words,
one quoted lexeme for each name that it is given, and placeholders. A
name stands in a template as a whole lexeme, so whatever it holds, it is
no part of the words around it.

Three lexemes are not a supplied text itself: an index is named after the
texts between the dots (`searchIndexName_eq`), the arrows lead along the
trimmed keys of a path (`field_joined`), and a constant of a patch is
`{}`, `[]`, or read back as a parent of the place
(`keys?_of_literal_mem_patch`). Placeholders are known from the templates
alone (`mem_patch_iff`, `mem_invocation_iff`).
-/

namespace DocStore.Template

open Sql (Lexeme)

/-! ## Words and names -/

/-- Fixed text, read one character at a time. -/
def words (s : String) : List Lexeme := s.toList.map .char

/-- An entity: its name, after its schema and a dot if that is not the
default one. -/
def entity (defaultSchema schema name : String) : List Lexeme :=
  if schema = defaultSchema then [.name name] else [.name schema, .char '.', .name name]

def table (t : Table) : List Lexeme := entity t.settings.defaultSchema t.schema t.name

/-! ## Saving -/

def insertion (t : Table) : List Lexeme :=
  words "insert into " ++ table t ++ words " (" ++ [.name t.primaryKey]
    ++ words ", body) values (" ++ [.placeholder 1] ++ words ", " ++ [.placeholder 2]
    ++ words ") returning *"

/-- The update of the row with an id, which assigns something to the body. -/
def update (t : Table) (assigned : List Lexeme) : List Lexeme :=
  words "update " ++ table t ++ words " set body = " ++ assigned ++ words " where "
    ++ [.name t.primaryKey] ++ words " = " ++ [.placeholder 1] ++ words " returning *"

/-- A new body. -/
def replacement : List Lexeme := [.placeholder 2]

/-- A body with an object at a parent of a path, unless it has a value there. -/
def grown (body : List Lexeme) (parent : List String) : List Lexeme :=
  words "jsonb_set(" ++ body ++ words ", " ++ [.literal (DocPath.arrayText parent)]
    ++ words "::text[], coalesce(body #> " ++ [.literal (DocPath.arrayText parent)]
    ++ words "::text[], " ++ [.literal "\x7b\x7d"] ++ words "::jsonb), true)"

def withParents (segments : List String) : List Lexeme :=
  (DocPath.parents segments).foldl grown (words "body")

def patchAt (segments : List String) : Patch → List Lexeme
  | .write .set _ _ =>
    words "jsonb_set(" ++ withParents segments ++ words ", " ++ [.placeholder 2]
      ++ words "::text[], " ++ [.placeholder 3] ++ words "::jsonb, true)"
  | .write .insert _ _ =>
    words "jsonb_insert(" ++ withParents segments ++ words ", " ++ [.placeholder 2]
      ++ words "::text[], " ++ [.placeholder 3] ++ words "::jsonb)"
  | .write .push _ _ =>
    words "jsonb_set(" ++ withParents segments ++ words ", " ++ [.placeholder 2]
      ++ words "::text[], coalesce(body #> " ++ [.placeholder 2] ++ words "::text[], "
      ++ [.literal "[]"] ++ words "::jsonb) || jsonb_build_array(" ++ [.placeholder 3]
      ++ words "::jsonb), true)"
  | .remove _ => words "body #- " ++ [.placeholder 2] ++ words "::text[]"

/-- A patch at the trimmed segments of its path. -/
def patch (p : Patch) : List Lexeme := patchAt (DocPath.parts p.path) p

/-! ## Searching -/

def arrows : List String → List Lexeme
  | [] => []
  | [key] => words " ->> " ++ [.literal key]
  | key :: rest => words " -> " ++ [.literal key] ++ arrows rest

/-- The text of a field, by the trimmed segments of a search key. -/
def field (key : String) : List Lexeme :=
  words "(body" ++ arrows (DocPath.parts key) ++ words ")"

def searched (keys : List String) : List Lexeme :=
  if keys = ["*"] then words "body::text"
  else
    match keys with
    | [key] => field key
    | keys =>
      words "concat("
        ++ List.intercalate (words ", " ++ [.literal " "] ++ words ", ") (keys.map field)
        ++ words ")"

def search (t : Table) (keys : List String) : List Lexeme :=
  words "select * from " ++ table t ++ words " where to_tsvector(" ++ [.literal "simple"]
    ++ words ", " ++ searched keys ++ words ") @@ to_tsquery(" ++ [.literal "simple"] ++ words ", "
    ++ [.placeholder 1] ++ words ")"

/-! ## Creating collections -/

/-- The schema and the name of a collection, trimmed. -/
def collectionKey (defaultSchema name : String) : EntityKey :=
  match Text.cut? "." name with
  | some (schema, table) => ⟨Text.trim schema, Text.trim table⟩
  | none => ⟨defaultSchema, Text.trim name⟩

/-- A schema if it is not the default one, a table, and its index. -/
def creation (defaultSchema : String) (key : EntityKey) : List (List Lexeme) :=
  (if key.schema = defaultSchema then []
    else [words "create schema if not exists " ++ [.name key.schema]]) ++
  [words "create table if not exists " ++ entity defaultSchema key.schema key.name
      ++ words " (id text primary key, body jsonb not null)",
    words "create index if not exists "
      ++ [.name (searchIndexName (qualifiedName defaultSchema key.schema key.name))]
      ++ words " on " ++ entity defaultSchema key.schema key.name
      ++ words " using gin (to_tsvector(" ++ [.literal "simple"] ++ words ", body::text))"]

/-! ## Calling functions -/

def invocation (f : Function) : List Lexeme :=
  words "select * from " ++ entity f.settings.defaultSchema f.schema f.name ++ words "("
    ++ (words ",").intercalate ((List.range f.paramCount).map fun n => [.placeholder (n + 1)])
    ++ words ")"

/-! ## Lexemes made of supplied texts -/

theorem searchIndexName_eq (qualified : String) :
    searchIndexName qualified = "idx_" ++ "_".intercalate (Text.splitOn '.' qualified) := by
  have hchars : ("_".intercalate (Text.splitOn '.' qualified)).toList = _ :=
    Text.toList_intercalate_splitOn '.' '_' qualified
  show String.ofList ("idx_".toList ++ _) = _
  rw [← hchars, String.ofList_append, String.ofList_toList, String.ofList_toList]

theorem field_joined {texts : List String} (hne : texts ≠ [])
    (hdots : ∀ text ∈ texts, '.' ∉ text.toList) :
    field (DocPath.joined texts) =
      words "(body" ++ arrows (texts.map Text.trim) ++ words ")" := by
  rw [field, DocPath.parts_joined hne hdots]

theorem mem_grown {l : Lexeme} {body : List Lexeme} {parent : List String}
    (h : l ∈ grown body parent) : l ∈ body ∨ l ∈ grown [] parent := by
  simp only [grown, List.mem_append] at h ⊢
  grind

/-- The lexemes of a body with objects at parents: those of the body, and
what each parent adds. -/
theorem mem_foldl_grown {l : Lexeme} : ∀ {parents : List (List String)} {body : List Lexeme},
    l ∈ parents.foldl grown body → l ∈ body ∨ ∃ parent ∈ parents, l ∈ grown [] parent
  | [], _, h => .inl h
  | parent :: _, _, h => by
    rw [List.foldl_cons] at h
    rcases mem_foldl_grown h with hbody | ⟨later, hlater, hgrown⟩
    · exact (mem_grown hbody).imp_right fun hgrown => ⟨parent, List.mem_cons_self, hgrown⟩
    · exact .inr ⟨later, List.mem_cons_of_mem _ hlater, hgrown⟩

@[simp] theorem literal_not_mem_words (constant s : String) :
    Lexeme.literal constant ∉ words s := by
  simp [words]

theorem keys?_of_literal_mem_withParents {segments : List String} {constant : String}
    (h : Lexeme.literal constant ∈ withParents segments) :
    constant = "\x7b\x7d" ∨
      ∃ parent ∈ DocPath.parents segments, Jsonb.keys? constant = some parent := by
  rcases mem_foldl_grown h with hbody | ⟨parent, hparent, hgrown⟩
  · exact absurd hbody (literal_not_mem_words constant "body")
  · have hcases : constant = DocPath.arrayText parent ∨ constant = "\x7b\x7d" := by
      simpa [grown] using hgrown
    rcases hcases with rfl | rfl
    · exact .inr ⟨parent, hparent, Jsonb.keys?_arrayText (DocPath.parents_ne_nil _ hparent)⟩
    · exact .inl rfl

/-- Whatever a path holds, the constants of its patch are two fixed ones and
those that are read back as beginnings of its keys. -/
theorem keys?_of_literal_mem_patch {p : Patch} {constant : String}
    (h : Lexeme.literal constant ∈ patch p) :
    constant = "\x7b\x7d" ∨ constant = "[]" ∨
      ∃ parent, Jsonb.keys? constant = some parent ∧
        parent <+: DocPath.parts p.path ∧ parent ≠ [] ∧ parent ≠ DocPath.parts p.path := by
  have hcases : .literal constant ∈ withParents (DocPath.parts p.path) ∨ constant = "[]" := by
    match p with
    | .write .set _ _ | .write .insert _ _ =>
      exact .inl (by simpa [patch, patchAt] using h)
    | .write .push _ _ => simpa [patch, patchAt] using h
    | .remove _ => exact absurd h (by simp [patch, patchAt])
  rcases hcases with hparents | rfl
  · rcases keys?_of_literal_mem_withParents hparents with rfl | ⟨parent, hparent, hkeys⟩
    · exact .inl rfl
    · exact .inr (.inr ⟨parent, hkeys, DocPath.mem_parents_iff.mp hparent⟩)
  · exact .inr (.inl rfl)

/-! ## Placeholders -/

section Placeholders

variable {n : Nat}

@[simp] theorem placeholder_not_mem_words (s : String) : Lexeme.placeholder n ∉ words s := by
  simp [words]

@[simp] theorem placeholder_not_mem_entity (defaultSchema schema name : String) :
    Lexeme.placeholder n ∉ entity defaultSchema schema name := by
  unfold entity
  split <;> simp

@[simp] theorem placeholder_not_mem_table (t : Table) : Lexeme.placeholder n ∉ table t :=
  placeholder_not_mem_entity _ _ _

@[simp] theorem placeholder_not_mem_withParents (segments : List String) :
    Lexeme.placeholder n ∉ withParents segments := by
  intro h
  rcases mem_foldl_grown h with hbody | ⟨parent, -, hgrown⟩
  · exact placeholder_not_mem_words "body" hbody
  · simp [grown] at hgrown

theorem placeholder_not_mem_arrows : ∀ segments : List String,
    Lexeme.placeholder n ∉ arrows segments
  | [] => by simp [arrows]
  | [key] => by simp [arrows]
  | key :: next :: rest => by
    have ih := placeholder_not_mem_arrows (next :: rest)
    rw [arrows]
    · simp [ih]
    · simp

@[simp] theorem placeholder_not_mem_field (key : String) : Lexeme.placeholder n ∉ field key := by
  simp [field, placeholder_not_mem_arrows]

/-- A lexeme of joined parts that does not stand between them is in a part. -/
theorem mem_intercalate_iff {l : Lexeme} {sep : List Lexeme} (h : l ∉ sep) :
    ∀ parts : List (List Lexeme), l ∈ sep.intercalate parts ↔ ∃ part ∈ parts, l ∈ part
  | [] => by simp [List.intercalate]
  | [part] => by simp [List.intercalate]
  | part :: next :: parts => by
    have ih := mem_intercalate_iff h (next :: parts)
    rw [List.intercalate_cons_cons, List.mem_append, List.mem_append, ih]
    simp [h]

@[simp] theorem placeholder_not_mem_searched (keys : List String) :
    Lexeme.placeholder n ∉ searched keys := by
  unfold searched
  split
  · simp
  · split
    · simp
    · rw [List.mem_append, List.mem_append, mem_intercalate_iff (by simp)]
      simp

/-- The id, the path and, where there is one, the value. -/
theorem mem_patch_iff (t : Table) (p : Patch) (id : Cell) (segments : List String) :
    Lexeme.placeholder n ∈ update t (patch p) ↔ 1 ≤ n ∧ n ≤ (p.params id segments).length := by
  have hparams : .placeholder n ∈ update t (patch p) ↔ .placeholder n ∈ patch p ∨ n = 1 := by
    simp [update]
  rw [hparams, patch]
  match p with
  | .write .set _ _ | .write .insert _ _ | .write .push _ _ =>
    simp [patchAt, Patch.params]
    omega
  | .remove _ =>
    simp [patchAt, Patch.params]
    omega

theorem mem_invocation_iff (f : Function) :
    Lexeme.placeholder n ∈ invocation f ↔ 1 ≤ n ∧ n ≤ f.paramCount := by
  have hargs : Lexeme.placeholder n ∈ invocation f ↔
      ∃ part ∈ (List.range f.paramCount).map fun i => [Lexeme.placeholder (i + 1)],
        Lexeme.placeholder n ∈ part := by
    rw [← mem_intercalate_iff (placeholder_not_mem_words ",")]
    simp [invocation]
  rw [hargs]
  constructor
  · rintro ⟨part, hpart, hn⟩
    obtain ⟨i, hi, rfl⟩ := List.mem_map.mp hpart
    have hlt := List.mem_range.mp hi
    obtain rfl : n = i + 1 := by simpa using hn
    omega
  · rintro ⟨hpos, hle⟩
    refine ⟨_, List.mem_map.mpr ⟨n - 1, List.mem_range.mpr (by omega), rfl⟩, ?_⟩
    rw [Nat.sub_add_cancel hpos]
    exact List.mem_singleton_self _

end Placeholders

end DocStore.Template
