import DocStore.Proofs.Path.Walk

/-!
# What a patch puts at its place

Along a walk the parents that a patch creates come to what `Json.update`
does at the position the walk leads to, and to nothing else. The
induction is on the walk: each of its steps is one parent, which the
patch finds or makes before it goes on in it.

Main statement: `set_replaces_value`.
-/

namespace DocStore

namespace Patch

open Jsonb Json

/-! ## The first key of a path -/

section Steps

variable {how : PatchWrite} {path key next : String} {value : Json} {rest : List String}

/-- A missing member is made, as an empty object, before the patch goes on
in it. -/
theorem outcome_member (members : Json.Members) :
    (write how path value).outcome (key :: next :: rest) (.obj members) =
      ((write how path value).outcome (next :: rest)
        ((Entries.get? key members).getD (.obj []))).map
        fun c => .obj (Entries.insert key c members) := by
  have hget : get? [key] (.obj members) = Entries.get? key members := by
    simp [get?]
  apply outcome_child (child_obj key members)
  · rw [putAt, if_pos (by simp), hget]
  · intro keys hkeys
    rw [get?_cons, hget]
    cases Entries.get? key members with
    | some child => rfl
    | none => exact (get?_empty hkeys).symm

theorem outcome_item {items : List Json} {i : Int} {p : Nat} {child : Json}
    (hi : index? key = some i) (hp : position? i items.length = some p)
    (hchild : items[p]? = some child) :
    (write how path value).outcome (key :: next :: rest) (.arr items) =
      ((write how path value).outcome (next :: rest) child).map
        fun c => .arr (items.set p c) := by
  have hget : get? [key] (.arr items) = some child := by
    simp [get?, hi, hp, hchild]
  apply outcome_child (child_item hi hp)
  · rw [hget]
    simp [putAt, index, hi, hp, bind, Except.bind, pure, Except.pure]
  · intro keys _
    rw [get?_cons, hget]
    rfl

/-- At the last key, what was there is replaced. -/
theorem outcome_last (hhow : how ≠ .insert) (body : Json) :
    (write how path value).outcome [key] body =
      putAt true (how.written (get? [key] body) value) key body := by
  cases how with
  | insert => exact absurd rfl hhow
  | set | push => rfl

end Steps

/-! ## Along a walk -/

/-- A patch that does not insert puts its value at the position that its path
leads to. Where there is nothing yet, it starts from an empty object. -/
theorem outcome_of_leads {how : PatchWrite} (hhow : how ≠ .insert) {path : String} {value : Json}
    {keys : List String} {old : Option Json} {steps : List Step} (h : Leads keys old steps)
    (hne : keys ≠ []) :
    (write how path value).outcome keys (old.getD (.obj [])) =
      .ok (update (how.written · value) steps old) := by
  induction h with
  | here => exact absurd rfl hne
  | @member key keys members steps h inside =>
    cases keys with
    | nil =>
      cases h
      rw [Option.getD_some, outcome_last hhow]
      simp [get?, putAt, update, put, child?]
    | cons next keys =>
      rw [Option.getD_some, outcome_member, inside (by simp)]
      rfl
  | @missing key keys steps h inside =>
    cases keys with
    | nil =>
      cases h
      rw [Option.getD_none, outcome_last hhow]
      rfl
    | cons next keys =>
      rw [Option.getD_none, outcome_member, Entries.get?_nil, inside (by simp)]
      rfl
  | @item key keys items i p steps hi hp h inside =>
    obtain ⟨child, hchild⟩ : ∃ child, items[p]? = some child :=
      ⟨_, List.getElem?_eq_getElem (position?_lt hp)⟩
    cases keys with
    | nil =>
      cases h
      rw [Option.getD_some, outcome_last hhow]
      simp [get?, putAt, index, hi, hp, hchild, bind, Except.bind, pure, Except.pure, update, put,
        child?]
    | cons next keys =>
      rw [hchild, Option.getD_some] at inside
      rw [Option.getD_some, outcome_item hi hp hchild, inside (by simp), ← hchild]
      rfl

/-- The assignment of a patch that does not insert, evaluated along a walk. -/
theorem evaluate_of_leads {how : PatchWrite} (hhow : how ≠ .insert) {path : String}
    {value body : Json} (hvalue : Json.read? value.text = some value) {keys : List String}
    (hne : keys ≠ []) {steps : List Step} (hleads : Leads keys (some body) steps) (id : Cell) :
    evaluate ((write how path value).assignment keys).sql.chars body
        ((write how path value).params id keys) =
      .ok (some (update (how.written · value) steps (some body))) := by
  have houtcome : (write how path value).outcome keys body =
      .ok (update (how.written · value) steps (some body)) := outcome_of_leads hhow hleads hne
  rw [evaluate_assignment hne id (reread?_write hvalue how path), houtcome]

/-- A `$set` along a walk gives the body with the value at the position that
the path leads to, and a document with that body has it at the path. -/
theorem set_replaces_value {path : String} {value body : Json} {steps : List Step}
    (hpath : "" ∉ DocPath.parts path) (hvalue : Json.read? value.text = some value)
    (hbody : body.IsObject) (hleads : Leads (DocPath.parts path) (some body) steps)
    (table : Sql) (primaryKey : String) (id : Cell) :
    ∃ text bound r,
      (write .set path value).statement table primaryKey id =
        .ok (updateSql table primaryKey text, bound) ∧
      evaluate text.chars body bound = .ok (some r) ∧
      r = update (fun _ => value) steps (some body) ∧
      r.at? steps = some value ∧
      (∀ other, Apart steps other → r.at? other = body.at? other) ∧
      (∀ parent key rest, steps = parent ++ .member key :: rest → body.at? parent = none →
        ∃ inner, r.at? parent = some (.obj [(key, inner)])) ∧
      ((DocPath.parts path).head? ≠ some Document.idColumn →
        FromFront (DocPath.parts path) steps →
        ∀ (result : QueryResult) (row : List Cell) (idCell bodyCell : Cell),
          result.cell? row Document.idColumn = some idCell →
          result.cell? row Document.bodyColumn = some bodyCell →
          Document.bodyValue bodyCell = .ok r →
          ∃ doc, Document.ofRow result row = .ok doc ∧
            doc.pointer? (DocPath.joined (DocPath.parts path)) = some value) := by
  let p : Patch := write .set path value
  have hne : DocPath.parts p.path ≠ [] := DocPath.parts_ne_nil path
  have hread : p.reread? = some p := by
    apply reread?_eq_self
    rintro v ⟨⟩
    exact hvalue
  have houtcome : p.outcome (DocPath.parts p.path) body =
      .ok (update (fun _ => value) steps (some body)) :=
    outcome_of_leads (by simp) hleads hne
  refine ⟨_, _, _, statement_eq (p := p) hpath table primaryKey id, ?_, rfl, hleads.at?_update,
    fun other h => at?_update_of_apart h (some body), ?_, ?_⟩
  · rw [evaluate_assignment hne id hread, houtcome]
  · rintro parent key rest rfl hnone
    exact ⟨_, hleads.at?_update_of_missing hnone⟩
  · intro hid hfront result row idCell bodyCell hidCell hbodyCell hcell
    exact Document.pointer?_update hbody hne (fun key hkey => DocPath.dot_not_mem_of_mem_parts hkey)
      hleads hfront hid hidCell hbodyCell hcell

/-- Through the second item of an array, whose index has a leading zero, into
an object that has neither of the last two keys. -/
theorem set_replaces_value_nested :
    "" ∉ DocPath.parts " a.01. b .c" ∧
    Json.read? (Json.str "x").text = some (.str "x") ∧
    (Json.obj [("a", .arr [.null, .obj [("k", .bool true)]])]).IsObject ∧
    Leads (DocPath.parts " a.01. b .c")
      (some (.obj [("a", .arr [.null, .obj [("k", .bool true)]])]))
      [.member "a", .item 1, .member "b", .member "c"] ∧
    ∃ text bound r,
      (write .set " a.01. b .c" (.str "x")).statement [.name "notes"] "id" (.text "7") =
        .ok (updateSql [.name "notes"] "id" text, bound) ∧
      evaluate text.chars (.obj [("a", .arr [.null, .obj [("k", .bool true)]])]) bound =
        .ok (some r) ∧
      r = .obj [("a", .arr [.null, .obj [("b", .obj [("c", .str "x")]), ("k", .bool true)]])] ∧
      ∃ doc, Document.ofRow ⟨["id", "body"], [[.text "7", .json r]]⟩ [.text "7", .json r] = .ok doc ∧
        doc.pointer? "a.01.b.c" = some (.str "x") := by
  have hparts : DocPath.parts " a.01. b .c" = ["a", "01", "b", "c"] := by decide
  have hpath : "" ∉ DocPath.parts " a.01. b .c" := by decide
  have hvalue : Json.read? (Json.str "x").text = some (.str "x") := rfl
  have hbody : (Json.obj [("a", .arr [.null, .obj [("k", .bool true)]])]).IsObject := ⟨_, rfl⟩
  have hleads : Leads (DocPath.parts " a.01. b .c")
      (some (.obj [("a", .arr [.null, .obj [("k", .bool true)]])]))
      [.member "a", .item 1, .member "b", .member "c"] := by
    rw [hparts]
    exact .member (.item (i := 1) rfl rfl (.member (.missing .here)))
  have hfront : FromFront (DocPath.parts " a.01. b .c")
      [.member "a", .item 1, .member "b", .member "c"] := by
    rw [hparts]
    simp [FromFront]
  obtain ⟨text, bound, r, hstatement, hevaluate, hr, -, -, -, hpointer⟩ :=
    set_replaces_value hpath hvalue hbody hleads [.name "notes"] "id" (.text "7")
  refine ⟨hpath, hvalue, hbody, hleads, text, bound, r, hstatement, hevaluate, hr, ?_⟩
  have hjoined : DocPath.joined (DocPath.parts " a.01. b .c") = "a.01.b.c" := by decide
  rw [← hjoined]
  exact hpointer (by decide) hfront _ _ _ _ rfl rfl rfl

end Patch

end DocStore
