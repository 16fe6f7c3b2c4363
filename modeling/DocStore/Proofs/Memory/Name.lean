import DocStore.Memory.Basic
import DocStore.Proofs.Text.Split

/-!
# Names of stored tables

Statements name a table by pieces between quotes, the store by its quoted
text. For names without blanks and double quotes the two are the same
text, it is one word, and it tells schema and name.

Main statements: `chars_qualified`, `storedName_inj`.
-/

namespace DocStore

/-- No blank and no double quote. -/
def IsPlain (name : String) : Prop := ∀ c ∈ name.toList, isBlank c = false ∧ c ≠ '"'

/-- The text of an id under which a document can be stored. -/
def Cell.idText? : Cell → Option String
  | .text s => some s
  | .int i => some (Cell.int i).display
  | _ => none

/-- A table of documents as collections are, under a plain name. -/
structure Table.IsDocuments (t : Table) : Prop where
  primaryKey : t.primaryKey = "id"
  defaultSchema : t.settings.defaultSchema = "public"
  schema : IsPlain t.schema
  name : IsPlain t.name

/-- The name under which the store keeps the table. -/
def Table.storedName (t : Table) : String := Memory.storedName t.schema t.name

theorem Sql.doubled_eq_self {quote : Char} : ∀ {s : List Char}, quote ∉ s → doubled quote s = s
  | [], _ => rfl
  | c :: s, h => by
    rw [List.mem_cons, not_or] at h
    rw [doubled, if_neg (Ne.symm h.1), doubled_eq_self h.2]

/-- A name in double quotes. -/
def quotedChars (name : String) : List Char := '"' :: name.toList ++ ['"']

theorem isPlain_of_all {name : String}
    (h : (name.toList.all fun c => !isBlank c && c != '"') = true) : IsPlain name := by
  intro c hc
  have hchar := List.all_eq_true.mp h c hc
  simpa using hchar

namespace IsPlain

theorem quote_not_mem {name : String} (h : IsPlain name) : '"' ∉ name.toList :=
  fun hmem => (h _ hmem).2 rfl

theorem chars_name {name : String} (h : IsPlain name) :
    (Sql.Piece.name name).chars = quotedChars name := by
  rw [Sql.Piece.chars, Sql.doubled_eq_self h.quote_not_mem, quotedChars]

theorem isBlank_quotedChars {name : String} (h : IsPlain name) :
    ∀ c ∈ quotedChars name, isBlank c = false := by
  intro c hc
  rw [quotedChars, List.mem_append, List.mem_cons, List.mem_singleton] at hc
  rcases hc with (rfl | hc) | rfl
  · decide
  · exact (h c hc).1
  · decide

end IsPlain

namespace Memory

theorem storedName_toList (schema name : String) :
    (storedName schema name).toList =
      if schema = "public" then quotedChars name
      else quotedChars schema ++ '.' :: quotedChars name := by
  unfold storedName
  split
  · simp [quotedChars]
  · simp [quotedChars]

theorem storedName_eq_cons (schema name : String) :
    ∃ rest, (storedName schema name).toList = '"' :: rest := by
  rw [storedName_toList]
  split
  · exact ⟨_, rfl⟩
  · exact ⟨_, rfl⟩

variable {schema name schema' name' : String}

/-- In a statement the table goes by the name under which it is stored. -/
theorem chars_qualified (hschema : IsPlain schema) (hname : IsPlain name) :
    Sql.chars (Sql.qualified "public" schema name) = (storedName schema name).toList := by
  rw [storedName_toList, Sql.qualified]
  split
  · rw [Sql.chars_cons, hname.chars_name, Sql.chars_nil, List.append_nil]
  · rw [Sql.chars_cons, Sql.chars_cons, Sql.chars_cons, hschema.chars_name, hname.chars_name,
      Sql.chars_nil, List.append_nil]
    rfl

/-- The name of a stored table is one word. -/
theorem isBlank_storedName (hschema : IsPlain schema) (hname : IsPlain name) :
    ∀ c ∈ (storedName schema name).toList, isBlank c = false := by
  intro c hc
  rw [storedName_toList] at hc
  split at hc
  · exact hname.isBlank_quotedChars c hc
  · rcases List.mem_append.mp hc with hc | hc
    · exact hschema.isBlank_quotedChars c hc
    · rcases List.mem_cons.mp hc with rfl | hc
      · decide
      · exact hname.isBlank_quotedChars c hc

theorem append_quote_inj {a b r s : List Char} (ha : '"' ∉ a) (hb : '"' ∉ b)
    (h : a ++ '"' :: r = b ++ '"' :: s) : a = b ∧ r = s := by
  have hcut : Chars.cut? ['"'] (a ++ '"' :: r) = Chars.cut? ['"'] (b ++ '"' :: s) := by rw [h]
  have hleft : Chars.cut? ['"'] (a ++ '"' :: r) = some (a, r) := Chars.cut?_first ha r
  have hright : Chars.cut? ['"'] (b ++ '"' :: s) = some (b, s) := Chars.cut?_first hb s
  rw [hleft, hright] at hcut
  cases hcut
  exact ⟨rfl, rfl⟩

theorem quotedChars_append_inj (hname : IsPlain name) (hname' : IsPlain name') {r s : List Char}
    (h : quotedChars name ++ r = quotedChars name' ++ s) : name = name' ∧ r = s := by
  simp only [quotedChars, List.cons_append, List.append_assoc, List.nil_append,
    List.cons.injEq, true_and] at h
  obtain ⟨hchars, hrest⟩ := append_quote_inj hname.quote_not_mem hname'.quote_not_mem h
  exact ⟨String.toList_inj.mp hchars, hrest⟩

/-- Tables with different schemas or names are stored apart. -/
theorem storedName_inj (hschema : IsPlain schema) (hname : IsPlain name)
    (hschema' : IsPlain schema') (hname' : IsPlain name')
    (h : storedName schema name = storedName schema' name') : schema = schema' ∧ name = name' := by
  have htext : (storedName schema name).toList = (storedName schema' name').toList := by rw [h]
  rw [storedName_toList, storedName_toList] at htext
  by_cases hp : schema = "public" <;> by_cases hp' : schema' = "public"
  · rw [if_pos hp, if_pos hp'] at htext
    rw [← List.append_nil (quotedChars name), ← List.append_nil (quotedChars name')] at htext
    exact ⟨hp.trans hp'.symm, (quotedChars_append_inj hname hname' htext).1⟩
  · rw [if_pos hp, if_neg hp', ← List.append_nil (quotedChars name)] at htext
    cases (quotedChars_append_inj hname hschema' htext).2
  · rw [if_neg hp, if_pos hp', ← List.append_nil (quotedChars name')] at htext
    cases (quotedChars_append_inj hschema hname' htext).2
  · rw [if_neg hp, if_neg hp'] at htext
    obtain ⟨hs, hrest⟩ := quotedChars_append_inj hschema hschema' htext
    rw [List.cons.injEq, ← List.append_nil (quotedChars name),
      ← List.append_nil (quotedChars name')] at hrest
    exact ⟨hs, (quotedChars_append_inj hname hname' hrest.2).1⟩

end Memory

end DocStore
