import DocStore.Proofs.Memory.Save
import DocStore.Proofs.Patch.Place

/-!
# Inserting values

An insertion changes the container above its place, and what it does
depends on that container alone: it adds a member to an object that does
not have it, refuses an object that does, and puts an item between two
others in an array, or at one of its ends. A container that is missing is
an empty object by then, since the parents are made first.

So the walk goes along all keys but the last, and the change of the
container is put back at its end (`outcome_insert_of_leads`).

Main statement: `insert_by_container`.
-/

namespace DocStore

namespace Jsonb

/-! ## Between two items -/

/-- An item for index `i` goes after `front` and before `back`: before the
item that the index names, which counts from the end if it is negative,
or else to the end that is nearer. -/
inductive Between (i : Int) : List Json → List Json → Prop where
  | before {front back : List Json} :
      back ≠ [] → i = front.length ∨ i = -(back.length : Int) → Between i front back
  | last {front : List Json} : (front.length : Int) ≤ i → Between i front []
  | first {back : List Json} : i < -(back.length : Int) → Between i [] back

/-- As many items as there are before the new one. -/
theorem Between.length_front {i : Int} {front back : List Json} (h : Between i front back) :
    (front.length : Int) =
      if i < 0 then max 0 (front.length + back.length + i)
      else min i (front.length + back.length) := by
  cases h with
  | before hne hi =>
    have hpos := List.length_pos_iff.mpr hne
    split <;> omega
  | last hi => split <;> simp <;> omega
  | first hi => split <;> simp <;> omega

/-- The items are cut at one place only. -/
theorem Between.unique {i : Int} {front back front' back' : List Json} (h : Between i front back)
    (h' : Between i front' back') (hitems : front ++ back = front' ++ back') :
    front = front' ∧ back = back' := by
  refine List.append_inj hitems ?_
  have hlength := congrArg List.length hitems
  rw [List.length_append, List.length_append] at hlength
  have hfront := h.length_front
  have hfront' := h'.length_front
  rw [← Int.natCast_add] at hfront hfront'
  rw [hlength, ← hfront'] at hfront
  exact Int.ofNat_inj.mp hfront

theorem insertIdx_length (front back : List Json) (new : Json) :
    (front ++ back).insertIdx front.length new = front ++ new :: back := by
  induction front with
  | nil => rfl
  | cons item front ih =>
    rw [List.cons_append, List.length_cons, List.insertIdx_succ_cons, ih, List.cons_append]

theorem insertAt_arr {key : String} {i : Int} (hi : index? key = some i) (new : Json)
    (items : List Json) :
    ∃ front back, items = front ++ back ∧ Between i front back ∧
      insertAt new key (.arr items) = .ok (.arr (front ++ new :: back)) := by
  cases hp : position? i items.length with
  | some p =>
    have hinsert : insertAt new key (.arr items) = .ok (.arr (items.insertIdx p new)) := by
      simp only [insertAt, index, hi, bind, Except.bind, hp]
      rfl
    obtain ⟨hlt, hposition⟩ := position?_eq_some.mp hp
    have hfront : (items.take p).length = p := List.length_take_of_le (Nat.le_of_lt hlt)
    have hback : (items.drop p).length = items.length - p := List.length_drop
    refine ⟨items.take p, items.drop p, (List.take_append_drop p items).symm, .before ?_ ?_, ?_⟩
    · rw [← List.length_pos_iff]
      omega
    · omega
    · have hcut := insertIdx_length (items.take p) (items.drop p) new
      rw [List.take_append_drop, hfront] at hcut
      rw [hinsert, hcut]
  | none =>
    have hinsert : insertAt new key (.arr items) =
        .ok (.arr (if i < 0 then new :: items else items ++ [new])) := by
      simp only [insertAt, index, hi, bind, Except.bind, hp]
      split <;> rfl
    have hout := position?_eq_none.mp hp
    rw [hinsert]
    by_cases hi : i < 0
    · exact ⟨[], items, rfl, .first (by omega), by rw [if_pos hi, List.nil_append]⟩
    · exact ⟨items, [], (List.append_nil items).symm, .last (by omega), by rw [if_neg hi]⟩

end Jsonb

namespace Patch

open Jsonb Json

variable {path : String} {value : Json}

/-! ## The container at the end of a walk -/

/-- An insertion changes the container that all keys but the last lead to. -/
theorem outcome_insert_of_leads {keys : List String} {old : Option Json} {steps : List Step}
    (h : Leads keys old steps) (path : String) (value : Json) (key : String) :
    (write .insert path value).outcome (keys ++ [key]) (old.getD (.obj [])) =
      (insertAt value key ((old.bind (at? steps)).getD (.obj []))).map
        fun container => update (fun _ => container) steps old := by
  -- there is a key after the first one, since the last one is still to come
  have hmore : ∀ keys : List String, ∃ next rest, keys ++ [key] = next :: rest := by
    intro keys
    exact List.exists_cons_of_ne_nil (by simp)
  induction h with
  | @here old =>
    cases old with
    | none => exact (congrFun Except.map_id (insertAt value key (.obj []))).symm
    | some j => exact (congrFun Except.map_id (insertAt value key j)).symm
  | @member next keys members steps h inside =>
    obtain ⟨second, rest, hkeys⟩ := hmore keys
    rw [hkeys] at inside
    rw [List.cons_append, hkeys, Option.getD_some, outcome_member, inside, map_map]
    rfl
  | @missing next keys steps h inside =>
    obtain ⟨second, rest, hkeys⟩ := hmore keys
    rw [hkeys] at inside
    rw [List.cons_append, hkeys, Option.getD_none, outcome_member, Entries.get?_nil, inside,
      map_map]
    rfl
  | @item next keys items i p steps hi hp h inside =>
    obtain ⟨second, rest, hkeys⟩ := hmore keys
    obtain ⟨child, hchild⟩ : ∃ child, items[p]? = some child :=
      ⟨_, List.getElem?_eq_getElem (position?_lt hp)⟩
    rw [hkeys, hchild, Option.getD_some] at inside
    rw [List.cons_append, hkeys, Option.getD_some, outcome_item hi hp hchild, inside, map_map]
    simp only [Option.bind_some, at?, child?, update, put, hchild]

theorem evaluate_insert (path : String) (hvalue : Json.read? value.text = some value)
    {keys : List String} {body : Json} {steps : List Step}
    (hleads : Leads keys (some body) steps) (key : String) (id : Cell) :
    evaluate ((write .insert path value).assignment (keys ++ [key])).sql.chars body
        ((write .insert path value).params id (keys ++ [key])) =
      match insertAt value key ((body.at? steps).getD (.obj [])) with
      | .ok container => .ok (some (update (fun _ => container) steps (some body)))
      | .error fault => .error (.execution fault) := by
  have houtcome := outcome_insert_of_leads hleads path value key
  rw [Option.getD_some, Option.bind_some] at houtcome
  rw [evaluate_assignment (by simp) id (reread?_write hvalue .insert path), houtcome]
  cases insertAt value key ((body.at? steps).getD (.obj [])) <;> rfl

/-! ## A member that is missing -/

/-- A member is inserted into an object, or a missing one, as it is set there. -/
theorem insertAt_new_member {container : Option Json} {key : String}
    (h : container = none ∨
      ∃ members, container = some (.obj members) ∧ Entries.get? key members = none) :
    insertAt value key (container.getD (.obj [])) = .ok (put value (.member key) container) := by
  rcases h with rfl | ⟨members, rfl, hnone⟩
  · rfl
  · rw [Option.getD_some, insertAt, Entries.contains, hnone]
    rfl

/-- What an `$insert` does at the end of a walk along all keys but the last:
it sets a missing member, fails for a member that is there, and puts an
item into an array. -/
theorem insert_by_container {key : String} {keys : List String} {body : Json} {steps : List Step}
    (hpath : "" ∉ DocPath.parts path) (hkeys : DocPath.parts path = keys ++ [key])
    (hvalue : Json.read? value.text = some value) (hleads : Leads keys (some body) steps)
    (t : Table) (id : Cell) :
    ∃ text bound,
      (write .insert path value).statement t.sqlName t.primaryKey id =
        .ok (updateSql t.sqlName t.primaryKey text, bound) ∧
      (body.at? steps = none ∨
          (∃ members, body.at? steps = some (.obj members) ∧ Entries.get? key members = none) →
        ∃ setText setBound r,
          (write .set path value).statement t.sqlName t.primaryKey id =
            .ok (updateSql t.sqlName t.primaryKey setText, setBound) ∧
          evaluate text.chars body bound = .ok (some r) ∧
          evaluate setText.chars body setBound = .ok (some r) ∧
          r = update (fun _ => value) (steps ++ [.member key]) (some body) ∧
          ∀ other, Apart (steps ++ [.member key]) other → r.at? other = body.at? other) ∧
      (∀ members old, body.at? steps = some (.obj members) →
          Entries.get? key members = some old →
        evaluate text.chars body bound = .error (.execution .existingKey) ∧
        ∀ (m : Memory) idText, t.IsDocuments → id.idText? = some idText →
          m.body? t.storedName idText = some body →
          ∃ e, m.execute (.ofSql (updateSql t.sqlName t.primaryKey text) bound true) =
            (.error e, m)) ∧
      (∀ items i, body.at? steps = some (.arr items) → index? key = some i →
        ∃ front back r, items = front ++ back ∧ Between i front back ∧
          evaluate text.chars body bound = .ok (some r) ∧
          r = update (fun _ => .arr (front ++ value :: back)) steps (some body) ∧
          r.at? steps = some (.arr (front ++ value :: back)) ∧
          ∀ other, Apart steps other → r.at? other = body.at? other) := by
  have hne : keys ++ [key] ≠ [] := by simp
  have hevaluate := evaluate_insert path hvalue hleads key id
  refine ⟨_, _, statement_eq (p := write .insert path value) hpath t.sqlName t.primaryKey id,
    ?_, ?_, ?_⟩
  · -- the container is an object without the member, or will be one
    intro hcontainer
    have hmember : Leads (keys ++ [key]) (some body) (steps ++ [.member key]) :=
      hleads.append_member key (hcontainer.imp_right fun ⟨members, h, _⟩ => ⟨members, h⟩)
    have hset : evaluate ((write .set path value).assignment (keys ++ [key])).sql.chars body
        ((write .set path value).params id (keys ++ [key])) =
          .ok (some (update (fun _ => value) (steps ++ [.member key]) (some body))) :=
      evaluate_of_leads (by simp) hvalue hne hmember id
    have hsame : update (fun _ => put value (.member key) (body.at? steps)) steps (some body) =
        update (fun _ => value) (steps ++ [.member key]) (some body) := by
      rw [update_append]
      exact update_congr rfl
    rw [insertAt_new_member hcontainer, ← hkeys] at hevaluate
    dsimp only at hevaluate
    rw [hsame] at hevaluate
    rw [← hkeys] at hset
    exact ⟨_, _, _, statement_eq (p := write .set path value) hpath t.sqlName t.primaryKey id,
      hevaluate, hset, rfl, fun other h => at?_update_of_apart h (some body)⟩
  · intro members old hobject hmember
    have hfault : insertAt value key ((body.at? steps).getD (.obj [])) = .error .existingKey := by
      rw [hobject, Option.getD_some, insertAt, Entries.contains, hmember]
      rfl
    rw [hfault, ← hkeys] at hevaluate
    exact ⟨hevaluate, fun m idText ht hid hbody =>
      execute_patch_of_error ht hid hbody (DocPath.parts_ne_nil path) hevaluate⟩
  · intro items i harray hi
    obtain ⟨front, back, hitems, hbetween, hinsert⟩ := insertAt_arr hi value items
    rw [harray, Option.getD_some, hinsert, ← hkeys] at hevaluate
    exact ⟨front, back, _, hitems, hbetween, hevaluate, rfl, hleads.at?_update,
      fun other h => at?_update_of_apart h (some body)⟩

/-- The second item from the end is the first one here, and the new item goes
before it; the member `a` itself is there, and is not inserted again. -/
theorem insert_by_container_list :
    let notes : Table := ⟨"public", "notes", "id", ⟨"public", 1000⟩⟩
    let body : Json := .obj [("a", .arr [.null, .bool true])]
    let store : Memory :=
      (Memory.addTable {} ⟨"public", "notes", none⟩).store "\"notes\"" [("7", body)]
    "" ∉ DocPath.parts "a.-2" ∧ DocPath.parts "a.-2" = ["a"] ++ ["-2"] ∧
    Json.read? (Json.str "x").text = some (.str "x") ∧
    Leads ["a"] (some body) [.member "a"] ∧
    (∃ text bound,
      (write .insert "a.-2" (.str "x")).statement notes.sqlName "id" (.text "7") =
        .ok (updateSql notes.sqlName "id" text, bound) ∧
      evaluate text.chars body bound =
        .ok (some (.obj [("a", .arr [.str "x", .null, .bool true])]))) ∧
    "" ∉ DocPath.parts "a" ∧ DocPath.parts "a" = [] ++ ["a"] ∧
    Leads [] (some body) [] ∧
    ∃ text bound,
      (write .insert "a" (.str "x")).statement notes.sqlName "id" (.text "7") =
        .ok (updateSql notes.sqlName "id" text, bound) ∧
      evaluate text.chars body bound = .error (.execution .existingKey) ∧
      notes.IsDocuments ∧ store.body? notes.storedName "7" = some body ∧
      ∃ e, store.execute (.ofSql (updateSql notes.sqlName "id" text) bound true) =
        (.error e, store) := by
  intro notes body store
  have hpath : "" ∉ DocPath.parts "a.-2" := by decide
  have hkeys : DocPath.parts "a.-2" = ["a"] ++ ["-2"] := by decide
  have hpath' : "" ∉ DocPath.parts "a" := by decide
  have hkeys' : DocPath.parts "a" = [] ++ ["a"] := by decide
  have hvalue : Json.read? (Json.str "x").text = some (.str "x") := rfl
  have hleads : Leads ["a"] (some body) [.member "a"] := .member .here
  have hnotes : notes.IsDocuments :=
    ⟨rfl, rfl, isPlain_of_all (by decide), isPlain_of_all (by decide)⟩
  have hbody : store.body? notes.storedName "7" = some body := rfl
  obtain ⟨text, bound, hstatement, -, -, hlist⟩ :=
    insert_by_container hpath hkeys hvalue hleads notes (.text "7")
  obtain ⟨front, back, r, hitems, hbetween, hevaluate, hr, -⟩ :=
    hlist [.null, .bool true] (-2) rfl rfl
  obtain ⟨text', bound', hstatement', -, hobject, -⟩ :=
    insert_by_container hpath' hkeys' hvalue .here notes (.text "7")
  obtain ⟨hfault, hstore⟩ := hobject [("a", .arr [.null, .bool true])] _ rfl rfl
  refine ⟨hpath, hkeys, hvalue, hleads, ⟨text, bound, hstatement, ?_⟩, hpath', hkeys', .here,
    text', bound', hstatement', hfault, hnotes, hbody, hstore store "7" hnotes rfl hbody⟩
  have hfirst : Between (-2) [] [.null, .bool true] := .before (by simp) (.inr rfl)
  obtain ⟨rfl, rfl⟩ := hfirst.unique hbetween hitems
  rw [hevaluate, hr]
  rfl

end Patch

end DocStore
