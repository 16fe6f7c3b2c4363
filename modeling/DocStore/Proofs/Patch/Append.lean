import DocStore.Proofs.Patch.Commute

/-!
# Pushing values

A push makes an array of what it finds at its place, with the value as
the last item: an array is extended, and of anything else, null and
objects too, the array begins with it. The value is one item even if it
is an array itself. Where nothing was, the array has only the value.

After a push there is an array at the place, and the path leads there as
before. So pushes in turn are an induction on the values, and only the
first of them can find nothing.

Main statement: `push_appends`.
-/

namespace DocStore

namespace Json

/-- What was there made into an array that ends with `value`. -/
def pushed (value : Json) : Option Json → Json
  | none => .arr [value]
  | some (.arr items) => .arr (items ++ [value])
  | some old => .arr [old, value]

/-- The items of an array, and no items of nothing. -/
def items? : Option Json → Option (List Json)
  | none => some []
  | some (.arr items) => some items
  | some _ => none

theorem pushed_of_items? {old : Option Json} {items : List Json} (h : items? old = some items)
    (value : Json) : pushed value old = .arr (items ++ [value]) := by
  unfold items? at h
  split at h
  · cases h
    rfl
  · cases h
    rfl
  · cases h

end Json

namespace Patch

open Jsonb Json

theorem written_push (old : Option Json) (value : Json) :
    PatchWrite.push.written old value = pushed value old := by
  cases old with
  | none => rfl
  | some j => cases j <;> rfl

section Walk

variable {path : String} {keys : List String} {steps : List Step}

theorem evaluate_push {value body : Json} (hvalue : Json.read? value.text = some value)
    (hne : keys ≠ []) (hleads : Leads keys (some body) steps) (id : Cell) :
    evaluate ((write .push path value).assignment keys).sql.chars body
        ((write .push path value).params id keys) =
      .ok (some (update (pushed value) steps (some body))) := by
  rw [evaluate_of_leads (by simp) hvalue hne hleads]
  simp only [written_push]

/-- The assignments of pushes to one path, in the order of the values. -/
def pushes (path : String) (keys : List String) (id : Cell) (values : List Json) :
    List (Sql × List Cell) :=
  values.map fun value =>
    (((write .push path value).assignment keys).sql, (write .push path value).params id keys)

/-- Pushes in turn add their values to the array at the place. -/
theorem assignAll_pushes (path : String) (hne : keys ≠ []) (id : Cell) :
    ∀ (values : List Json) {items : List Json} {body : Json},
    values ≠ [] → (∀ value ∈ values, Json.read? value.text = some value) →
    Leads keys (some body) steps → items? (body.at? steps) = some items →
    assignAll (pushes path keys id values) body =
      .ok (update (fun _ => .arr (items ++ values)) steps (some body))
  | [], _, _, hvalues, _, _, _ => absurd rfl hvalues
  | value :: rest, items, body, _, hread, hleads, hitems => by
    rw [List.forall_mem_cons] at hread
    have hfirst : update (pushed value) steps (some body) =
        update (fun _ => .arr (items ++ [value])) steps (some body) :=
      update_congr (pushed_of_items? hitems value)
    rw [pushes, List.map_cons, assignAll, evaluate_push hread.1 hne hleads, hfirst]
    cases rest with
    | nil => rfl
    | cons next rest =>
      let first := update (fun _ => .arr (items ++ [value])) steps (some body)
      have hfound : items? (first.at? steps) = some (items ++ [value]) := by
        rw [hleads.at?_update]
        rfl
      have hrest := assignAll_pushes path hne id (next :: rest) (by simp) hread.2
        (hleads.leads_update _) hfound
      rw [hleads.update_update, List.append_assoc, List.singleton_append] at hrest
      exact hrest

end Walk

/-- A `$push` along a walk gives the body with the value added at the position
that the path leads to; and a row of them, where there is an array or
nothing, adds all values in order. -/
theorem push_appends {path : String} {body : Json} {steps : List Step}
    (hpath : "" ∉ DocPath.parts path) (hleads : Leads (DocPath.parts path) (some body) steps)
    (table : Sql) (primaryKey : String) (id : Cell) :
    (∀ value, Json.read? value.text = some value →
      ∃ text bound r,
        (write .push path value).statement table primaryKey id =
          .ok (updateSql table primaryKey text, bound) ∧
        evaluate text.chars body bound = .ok (some r) ∧
        r = update (pushed value) steps (some body) ∧
        r.at? steps = some (pushed value (body.at? steps)) ∧
        (∀ other, Apart steps other → r.at? other = body.at? other) ∧
        (∀ parent key rest, steps = parent ++ .member key :: rest → body.at? parent = none →
          ∃ inner, r.at? parent = some (.obj [(key, inner)]))) ∧
    ∀ values items, values ≠ [] → (∀ value ∈ values, Json.read? value.text = some value) →
      items? (body.at? steps) = some items →
      ∃ sent r,
        List.Forall₂ (fun value assigned => (write .push path value).statement table primaryKey id =
          .ok (updateSql table primaryKey assigned.1, assigned.2)) values sent ∧
        assignAll sent body = .ok r ∧
        r = update (fun _ => .arr (items ++ values)) steps (some body) ∧
        r.at? steps = some (.arr (items ++ values)) ∧
        ∀ other, Apart steps other → r.at? other = body.at? other := by
  have hne := DocPath.parts_ne_nil path
  constructor
  · intro value hvalue
    refine ⟨_, _, _, statement_eq (p := write .push path value) hpath table primaryKey id,
      evaluate_push hvalue hne hleads id, rfl, hleads.at?_update,
      fun other h => at?_update_of_apart h (some body), ?_⟩
    rintro parent key rest rfl hnone
    exact ⟨_, hleads.at?_update_of_missing hnone⟩
  · intro values items hvalues hread hitems
    refine ⟨_, _, ?_, assignAll_pushes path hne id values hvalues hread hleads hitems, rfl,
      hleads.at?_update, fun other h => at?_update_of_apart h (some body)⟩
    rw [pushes, List.forall₂_map_right_iff, List.forall₂_same]
    intro value _
    exact statement_eq (p := write .push path value) hpath table primaryKey id

/-- An array and then null are pushed to an array that is itself the last item
of another one. -/
theorem push_appends_nested :
    "" ∉ DocPath.parts "a.-1" ∧
    Leads (DocPath.parts "a.-1") (some (.obj [("a", .arr [.null, .arr [.bool true]])]))
      [.member "a", .item 1] ∧
    Json.read? (Json.arr [.null]).text = some (.arr [.null]) ∧
    Json.read? Json.null.text = some .null ∧
    (∃ text bound,
      (write .push "a.-1" (.arr [.null])).statement [.name "notes"] "id" (.text "7") =
        .ok (updateSql [.name "notes"] "id" text, bound) ∧
      evaluate text.chars (.obj [("a", .arr [.null, .arr [.bool true]])]) bound =
        .ok (some (.obj [("a", .arr [.null, .arr [.bool true, .arr [.null]]])]))) ∧
    ∃ sent,
      List.Forall₂ (fun value assigned =>
        (write .push "a.-1" value).statement [.name "notes"] "id" (.text "7") =
          .ok (updateSql [.name "notes"] "id" assigned.1, assigned.2))
        [.arr [.null], .null] sent ∧
      assignAll sent (.obj [("a", .arr [.null, .arr [.bool true]])]) =
        .ok (.obj [("a", .arr [.null, .arr [.bool true, .arr [.null], .null]])]) := by
  have hparts : DocPath.parts "a.-1" = ["a", "-1"] := by decide
  have hpath : "" ∉ DocPath.parts "a.-1" := by decide
  have harray : Json.read? (Json.arr [.null]).text = some (.arr [.null]) := rfl
  have hnull : Json.read? Json.null.text = some .null := rfl
  have hleads : Leads (DocPath.parts "a.-1")
      (some (.obj [("a", .arr [.null, .arr [.bool true]])])) [.member "a", .item 1] := by
    rw [hparts]
    exact .member (.item (i := -1) rfl rfl .here)
  obtain ⟨hone, hall⟩ := push_appends hpath hleads [.name "notes"] "id" (.text "7")
  obtain ⟨text, bound, r, hstatement, hevaluate, hr, -⟩ := hone (.arr [.null]) harray
  obtain ⟨sent, r', hsent, hassign, hr', -⟩ :=
    hall [.arr [.null], .null] [.bool true] (by simp) (by simp [harray, hnull]) rfl
  refine ⟨hpath, hleads, harray, hnull, ⟨text, bound, hstatement, ?_⟩, sent, hsent, ?_⟩
  · rw [hevaluate, hr]
    rfl
  · rw [hassign, hr']
    rfl

end Patch

end DocStore
