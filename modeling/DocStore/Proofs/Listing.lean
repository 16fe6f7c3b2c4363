import DocStore.Proofs.Condition.KeyField
import DocStore.Proofs.Condition.Routing
import DocStore.Proofs.History
import DocStore.Proofs.Memory.Order

/-!
# Listings

What a search finds in a table of documents that is kept in a store. The
search for everything lists every stored document once, in increasing
order of the ids. The search for a text in one field gives the documents
of that list which have the text there, in the same order; the field may
have any name but the empty one and that of the key, without blanks,
single quotes, dots and operators.

Main statement: `lists_run`.
-/

namespace DocStore

open Call

variable {γ : Type}

/-! ## Rows as documents -/

/-- The documents of rows, in the same order. -/
def Memory.documents (rows : Rows) : List Document :=
  rows.filterMap fun row => Document.ofBody? row.1 row.2

/-- The document has this text under the key. -/
def Document.hasText (key text : String) (d : Document) : Bool :=
  (Entries.get? key d.members).bind Json.text? == some text

theorem Document.hasText_iff {key text : String} {d : Document} :
    d.hasText key text = true ↔ Entries.get? key d.members = some (.str text) := by
  rw [hasText, beq_iff_eq]
  cases Entries.get? key d.members with
  | none => exact iff_of_false nofun nofun
  | some j => cases j <;> simp [Json.text?]

namespace Memory

/-- A reply with rows of objects is read as their documents. -/
theorem mapM_ofRow (all : Rows) : ∀ {rows : Rows}, (∀ row ∈ rows, row.2.IsObject) →
    (documentRows rows).rows.mapM (Document.ofRow (documentRows all)) = .ok (documents rows)
  | [], _ => rfl
  | (id, body) :: rows, h => by
    rw [List.forall_mem_cons] at h
    obtain ⟨⟨members, rfl⟩, hrows⟩ := h
    have hrest := mapM_ofRow all hrows
    show List.mapM _ (_ :: (documentRows rows).rows) = _
    rw [List.mapM_cons, hrest]
    rfl

theorem all_documentRows {rows : Rows} (h : ∀ row ∈ rows, row.2.IsObject) :
    Document.all (documentRows rows) = .ok (documents rows) := mapM_ofRow rows h

variable {rows : Rows}

theorem mem_documents (h : rows.Sorted) {d : Document} :
    d ∈ documents rows ↔ ∃ text, (rows.get? text).bind (Document.ofBody? text) = some d := by
  simp only [documents, List.mem_filterMap, Prod.exists, Entries.mem_iff_get? h,
    Option.bind_eq_some_iff]

/-- The ids increase as they do in the rows. -/
theorem pairwise_documents (h : rows.Sorted) :
    (documents rows).Pairwise fun a b =>
      ∃ x y, a.idText? = some x ∧ b.idText? = some y ∧ x < y := by
  rw [documents, List.pairwise_filterMap]
  refine h.imp ?_
  intro first second hbefore a ha b hb
  obtain ⟨members, -, rfl⟩ := Option.map_eq_some_iff.mp ha
  obtain ⟨members', -, rfl⟩ := Option.map_eq_some_iff.mp hb
  exact ⟨first.1, second.1, Document.idText?_withId .., Document.idText?_withId ..,
    of_decide_eq_true hbefore⟩

/-- A member other than the id is the same in the document as in the body. -/
theorem filter_documents {key : String} (hkey : key ≠ "id") (text : String) (rows : Rows) :
    documents (rows.filter fun row => (row.2.member? key).bind Json.text? == some text) =
      (documents rows).filter (Document.hasText key text) := by
  rw [documents, documents, List.filterMap_filter, List.filter_filterMap]
  congr 1
  funext row
  obtain ⟨id, body⟩ := row
  cases body with
  | obj members =>
    have hmember : Document.hasText key text (.withId id members) =
        (((Json.obj members).member? key).bind Json.text? == some text) := by
      rw [Document.hasText, Document.withId,
        Entries.get?_insert_of_ne (show Document.idColumn ≠ key from Ne.symm hkey)]
      rfl
    show _ = Option.filter (Document.hasText key text) (some (.withId id members))
    rw [Option.filter_some, hmember]
    rfl
  | _ =>
    show (if _ then none else none) = none
    split <;> rfl

end Memory

/-! ## Searches -/

/-- A name of a field that can be searched for a text. -/
structure IsFieldName (key : String) : Prop where
  not_empty : key ≠ ""
  not_key : key ≠ "id"
  plain : ∀ c ∈ key.toList,
    isBlank c = false ∧ c ≠ '\'' ∧ c ≠ '.' ∧ c ≠ '<' ∧ c ≠ '>' ∧ c ≠ '='

namespace IsFieldName

variable {key : String} (h : IsFieldName key)
include h

theorem plainName : PlainName key := by
  refine ⟨fun c hc => (h.plain c hc).2.2, ?_⟩
  rw [Text.trim, Chars.trim_eq_self, String.ofList_toList]
  · exact fun c hc => (h.plain c (List.mem_of_mem_head? hc)).1
  · exact fun c hc => (h.plain c (List.mem_of_mem_getLast? hc)).1

theorem space_not_mem : ' ' ∉ key.toList := by
  intro hmem
  have hblank := (h.plain ' ' hmem).1
  revert hblank
  decide

theorem quote_not_mem : '\'' ∉ key.toList := fun hmem => (h.plain _ hmem).2.1 rfl

theorem compile_eq (value : String) :
    (Condition.byFields [(key, .text value)]).compile "id" =
      .ok (Memory.fieldPredicate key value) := by
  have hparse : Key.parse key = .ok ⟨key, none⟩ := parse_plain h.plainName h.not_empty
  have hother : ∀ k v, ¬ Condition.ByKey "id" (.byFields [(key, .text value)]) k v := by
    intro k v hkey
    cases hkey with
    | field hk hproperty =>
      cases hparse.symm.trans hk
      exact h.not_key hproperty
  have hcompared : Comparison.ofField ⟨key, none⟩ (.text value) =
      .ok (.holds (.field [key] true) .eq (.text value) false) := by
    rw [Comparison.ofField, segments_plain h.plainName h.not_empty]
    rfl
  have hparses : List.Forall₂ Condition.Parses [(key, .text value)]
      [(⟨key, none⟩, .text value)] := .cons ⟨hparse, rfl⟩ .nil
  rw [Condition.compile_body hparses (by simp) hother, List.mapM_cons]
  dsimp only
  rw [hcompared]
  rfl

end IsFieldName

section Search

variable (next : γ → Cell × γ) {t : Table} (ht : t.IsDocuments) {m : Memory}
  (hfail : m.failure = none) {rows : Rows} (hrows : m.tables.get? t.storedName = some rows) (g : γ)
include ht hfail hrows

/-- A search that is no look-up answers with the documents of the selected rows. -/
theorem play_find_selected {condition : Condition} {p : Predicate} {clause : Option String}
    {found : Rows} (hcompile : condition.compile "id" = .ok p) (hmany : p.lookup = false)
    (hclause : Memory.clause? (.ofList (t.storedName.toList ++
      (p.whereSql.chars ++ Memory.page t))) = clause)
    (hfound : Memory.selectRows rows clause p.params = .ok found)
    (hobjects : ∀ row ∈ found, row.2.IsObject) :
    play (Memory.host next) (t.find condition {}) (m, g) =
      (.ok (.many (Memory.documents found)), m, g) := by
  have hexecute := Memory.execute_find ht hfail hrows hclause hfound p.lookup
  have hresult : Table.findResult p (Memory.documentRows found) =
      .ok (.many (Memory.documents found)) := by
    rw [Table.findResult, hmany, Memory.all_documentRows hobjects]
    rfl
  rw [← ht.primaryKey] at hcompile
  exact play_find next hcompile hexecute hresult g

variable (hobjects : ∀ row ∈ rows, row.2.IsObject)
include hobjects

theorem play_find_all :
    play (Memory.host next) (t.find .all {}) (m, g) =
      (.ok (.many (Memory.documents rows)), m, g) :=
  play_find_selected next ht hfail hrows g (p := .matchAll) rfl rfl (Memory.clause?_all ht) rfl
    hobjects

theorem play_find_field {key : String} (hkey : IsFieldName key) (value : String) :
    play (Memory.host next) (t.find (.byFields [(key, .text value)]) {}) (m, g) =
      (.ok (.many ((Memory.documents rows).filter (Document.hasText key value))), m, g) := by
  rw [← Memory.filter_documents hkey.not_key]
  refine play_find_selected next ht hfail hrows g (hkey.compile_eq value) rfl
    (Memory.clause?_field ht hkey.space_not_mem hkey.quote_not_mem value)
    (Memory.selectRows_field rows key value) ?_
  exact fun row hrow => hobjects row (List.mem_of_mem_filter hrow)

end Search

/-! ## After any operations -/

namespace World

section Steps

variable {next : γ → Cell × γ} {w : World γ}

theorem answer_find (t : Table) (condition : Condition) (options : FindOptions) :
    w.answer next (.ofEntity (.find t condition options)) =
      (play (Memory.host next) (t.find condition options) (w.memory, w.ids)).1.map .found := by
  have hanswer : w.answer next (.ofEntity (.find t condition options)) =
      (play (Memory.host next) (do return Answer.found (← t.find condition options))
        (w.memory, w.ids)).1 := by
    show ((Action.session (Action.call _) w.db).run (Memory.host next) _).value.1 = _
    rw [Action.run_call]
    rfl
  rw [hanswer, play_map]

theorem sortedRows_run (h : w.memory.SortedRows) (ops : List Operation) :
    (w.run next ops).memory.SortedRows := by
  induction ops generalizing w with
  | nil => exact h
  | cons o ops ih => exact ih ((o.action.session w.db).sortedRows_run next w.ids h)

theorem IsFresh.consistent {w : World γ} (hw : w.IsFresh) : w.Consistent where
  works := hw.works
  objects table id body h := by
    rw [hw.empty] at h
    cases h
  latest t _ text := by
    rw [hw.empty, hw.saves]
    rfl

/-- Without any body every table is without rows. -/
theorem IsFresh.sortedRows (h : w.IsFresh) : w.memory.SortedRows := by
  intro table rows hrows
  cases rows with
  | nil => exact List.Pairwise.nil
  | cons row rows =>
    have hnone := h.empty table row.1
    rw [Memory.body?_of_rows hrows, Entries.get?, if_pos rfl] at hnone
    cases hnone

end Steps

/-- These are the documents of a table: all that are stored and nothing else,
once each and in increasing order of the ids. They are the latest that were
saved. -/
structure Lists (w : World γ) (t : Table) (docs : List Document) : Prop where
  increasing : docs.Pairwise fun a b => ∃ x y, a.idText? = some x ∧ b.idText? = some y ∧ x < y
  stored : ∀ d ∈ docs, ∃ text body,
    w.memory.body? t.storedName text = some body ∧ Document.ofBody? text body = some d
  listed : ∀ text body, w.memory.body? t.storedName text = some body →
    ∃ d ∈ docs, Document.ofBody? text body = some d
  latest : ∀ d, d ∈ docs ↔ ∃ text, w.saves.last? t text = some d

theorem Consistent.lists {w : World γ} (hw : w.Consistent) (hsorted : w.memory.SortedRows)
    {t : Table} (ht : t.IsDocuments) {rows : Rows}
    (hrows : w.memory.tables.get? t.storedName = some rows) :
    w.Lists t (Memory.documents rows) := by
  have hmem : ∀ d, d ∈ Memory.documents rows ↔ ∃ text,
      (w.memory.body? t.storedName text).bind (Document.ofBody? text) = some d := by
    intro d
    simp only [Memory.mem_documents (hsorted _ _ hrows), Memory.body?_of_rows hrows]
  refine ⟨Memory.pairwise_documents (hsorted _ _ hrows), ?_, ?_, ?_⟩
  · intro d hd
    obtain ⟨text, htext⟩ := (hmem d).mp hd
    obtain ⟨body, hbody, hdoc⟩ := Option.bind_eq_some_iff.mp htext
    exact ⟨text, body, hbody, hdoc⟩
  · intro text body hbody
    obtain ⟨members, rfl⟩ := hw.objects _ _ _ hbody
    exact ⟨.withId text members, (hmem _).mpr ⟨text, by rw [hbody]; rfl⟩, rfl⟩
  · intro d
    simp only [hmem, hw.latest t ht]

/-- Saves to tables of documents that are there are admitted in any order. -/
theorem admitsAll_of_hasTable {next : γ → Cell × γ} {w : World γ} (hw : w.Consistent)
    {ops : List Operation} (h : ∀ o ∈ ops, ∀ db s, o.save? db = some s →
      s.table.IsDocuments ∧ w.memory.hasTable s.table.storedName = true) :
    w.AdmitsAll next ops := by
  induction ops generalizing w with
  | nil => trivial
  | cons o ops ih =>
    rw [List.forall_mem_cons] at h
    have ho : w.Admits o := fun s hs => (h.1 w.db s hs).imp_right .inr
    refine ⟨ho, ih (consistent_step hw ho) ?_⟩
    exact fun o' ho' db s hs => (h.2 o' ho' db s hs).imp_right (hasTable_step hw ho)

/-- After any operations on tables of documents, the search for everything in
one that is there lists its documents, and the search for a text in a field
filters this list. -/
theorem lists_run {next : γ → Cell × γ} {w : World γ} (hw : w.IsFresh) {ops : List Operation}
    (hops : w.AdmitsAll next ops) {t : Table} (ht : t.IsDocuments) :
    (w.memory.hasTable t.storedName = true →
      (w.run next ops).memory.hasTable t.storedName = true) ∧
    ((w.run next ops).memory.hasTable t.storedName = true →
      ∃ docs, (w.run next ops).Lists t docs ∧
        (w.run next ops).answer next (.ofEntity (.find t .all {})) = .ok (.found (.many docs)) ∧
        ∀ key value, IsFieldName key →
          (w.run next ops).answer next (.ofEntity (.find t (.byFields [(key, .text value)]) {})) =
            .ok (.found (.many (docs.filter (Document.hasText key value))))) := by
  have hconsistent : (w.run next ops).Consistent := consistent_run hw.consistent hops
  have hsorted : (w.run next ops).memory.SortedRows := sortedRows_run hw.sortedRows ops
  refine ⟨hasTable_run hw.consistent hops, fun hthere => ?_⟩
  obtain ⟨rows, hrows⟩ := Option.isSome_iff_exists.mp hthere
  have hobjects : ∀ row ∈ rows, row.2.IsObject := fun row hrow =>
    hconsistent.objects.rows hrows ((Entries.mem_iff_get? (hsorted _ _ hrows)).mp hrow)
  refine ⟨Memory.documents rows, hconsistent.lists hsorted ht hrows, ?_, ?_⟩
  · rw [answer_find, play_find_all next ht hconsistent.works hrows _ hobjects]
    rfl
  · intro key value hkey
    rw [answer_find, play_find_field next ht hconsistent.works hrows _ hobjects hkey]
    rfl

/-- Notes in a schema. -/
def notesIn (schema : String) : Table := ⟨schema, "notes", "id", ⟨"public", 1000⟩⟩

/-- New ids are counted. -/
def countedId (n : Nat) : Cell × Nat := (.int (.ofNat n), n + 1)

/-- Two notes are saved, one of them twice, and searched for a tag. -/
theorem lists_run_notes :
    let notes := notesIn "public"
    let w := ofTable notes 0
    let ops : List Operation :=
      [.ofEntity (.insert notes (.obj [("id", .str "2"), ("tag", .str "blue")])),
        .ofEntity (.insert notes (.obj [("id", .str "1"), ("tag", .str "red")])),
        .ofEntity (.update notes (.obj [("id", .str "1"), ("tag", .str "blue")]))]
    w.IsFresh ∧ w.AdmitsAll countedId ops ∧ notes.IsDocuments ∧
      (w.run countedId ops).memory.hasTable notes.storedName = true ∧ IsFieldName "tag" ∧
      ∃ docs, (w.run countedId ops).Lists notes docs ∧
        (w.run countedId ops).answer countedId (.ofEntity (.find notes .all {})) =
          .ok (.found (.many docs)) ∧
        (w.run countedId ops).answer countedId
          (.ofEntity (.find notes (.byFields [("tag", .text "blue")]) {})) =
            .ok (.found (.many (docs.filter (Document.hasText "tag" "blue")))) := by
  intro notes w ops
  have hnotes : notes.IsDocuments :=
    ⟨rfl, rfl, isPlain_of_all (by decide), isPlain_of_all (by decide)⟩
  have hfresh : w.IsFresh := isFresh_ofTable notes 0
  have hops : w.AdmitsAll countedId ops := by
    refine admitsAll_of_hasTable hfresh.consistent ?_
    simp only [ops, List.forall_mem_cons]
    refine ⟨?_, ?_, ?_, nofun⟩ <;>
    · rintro db s ⟨⟩
      exact ⟨hnotes, rfl⟩
  have htag : IsFieldName "tag" := by
    refine ⟨by decide, by decide, ?_⟩
    show ∀ c ∈ ['t', 'a', 'g'], _
    simp only [List.forall_mem_cons]
    exact ⟨by decide, by decide, by decide, nofun⟩
  obtain ⟨htables, hlists⟩ := lists_run hfresh hops hnotes
  obtain ⟨docs, hdocs, hall, hfield⟩ := hlists (htables rfl)
  exact ⟨hfresh, hops, hnotes, htables rfl, htag, docs, hdocs, hall, hfield "tag" "blue" htag⟩

/-- A note with a field without a name is saved. -/
def unnamedField : World Nat :=
  (ofTable (notesIn "public") 0).step countedId
    (.ofEntity (.insert (notesIn "public") (.obj [("", .str "v"), ("id", .str "1")])))

/-- A search for a field without a name is refused, also if the only document
has the field. Notes in a schema with a blank or a double quote are there, but
no search finds the table. -/
theorem unlisted_notes :
    (match unnamedField.answer countedId (.ofEntity (.find (notesIn "public") .all {})) with
      | .ok (.found (.many [d])) => d.hasText "" "v"
      | _ => false) = true ∧
    unnamedField.answer countedId
        (.ofEntity (.find (notesIn "public") (.byFields [("", .text "v")]) {})) matches
      .error (.invalid (.noProperty "")) ∧
    (ofTable (notesIn "my notes") 0).memory.hasTable (notesIn "my notes").storedName = true ∧
    (ofTable (notesIn "my notes") 0).answer countedId
        (.ofEntity (.find (notesIn "my notes") .all {})) matches
      .error (.execution (.noRelation "\"my")) ∧
    (ofTable (notesIn "my\"notes") 0).memory.hasTable (notesIn "my\"notes").storedName = true ∧
    (ofTable (notesIn "my\"notes") 0).answer countedId
        (.ofEntity (.find (notesIn "my\"notes") .all {})) matches
      .error (.execution (.noRelation _)) := by
  refine ⟨?_, ?_, ?_, ?_, ?_, ?_⟩ <;> decide +kernel

end World

end DocStore
