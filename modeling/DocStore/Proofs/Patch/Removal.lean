import DocStore.Proofs.Patch.Commute

/-!
# Removing values

A removal takes one member or one item out of its container. Everything
outside of the container stays, and so does everything inside of it but
the value itself, except that the items after it move up by one
(`Step.origin`).

The walk to the container is the same as for any edit. It has three ends:
a value, which is removed; nothing, and then the body is left as it is;
and an array where the key is no index (`Blocked`), which is the only
fault of a removal.

Main statement: `remove_deletes`.
-/

namespace DocStore

/-! ## One step less -/

namespace Json

/-- The value without what is one step further. -/
def without : Step → Json → Json
  | .member key, .obj members => .obj (Entries.erase key members)
  | .item p, .arr items => .arr (items.eraseIdx p)
  | _, j => j

/-- The step that led, before `removed` was taken out, to what is at a step
now; none for a member that is gone. -/
def Step.origin (removed : Step) : Step → Option Step
  | .member key => if removed = .member key then none else some (.member key)
  | .item q =>
    match removed with
    | .item p => some (.item (if q < p then q else q + 1))
    | .member _ => some (.item q)

theorem child?_without {removed : Step} {j target : Json} (h : j.child? removed = some target)
    (step : Step) : (j.without removed).child? step = (removed.origin step).bind (child? · j) := by
  cases removed with
  | member key =>
    cases j with
    | obj members =>
      cases step with
      | member other =>
        show Entries.get? other (Entries.erase key members) = _
        rw [Entries.get?_erase]
        by_cases hkey : key = other <;> simp [Step.origin, child?, hkey]
      | item q => rfl
    | _ => cases h
  | item p =>
    cases j with
    | arr items =>
      cases step with
      | member other => rfl
      | item q =>
        show (items.eraseIdx p)[q]? = _
        rw [List.getElem?_eraseIdx]
        by_cases hq : q < p <;> simp [Step.origin, child?, hq]
    | _ => cases h

/-- What is below the container now, in terms of what was there before. -/
theorem at?_update_without {parent : List Step} {last : Step} {j container target : Json}
    (hcontainer : j.at? parent = some container) (htarget : container.child? last = some target)
    (step : Step) (rest : List Step) :
    (update (fun _ => container.without last) parent (some j)).at? (parent ++ step :: rest) =
      (last.origin step).bind fun before => j.at? (parent ++ before :: rest) := by
  rw [at?_append, at?_update_of_some hcontainer, Option.bind_some, at?, child?_without htarget]
  cases last.origin step with
  | none => rfl
  | some before =>
    rw [Option.bind_some, Option.bind_some, at?_append, hcontainer]
    rfl

/-- A member that is put into an object and taken out again. -/
theorem without_put {members : Members} (hsorted : Entries.Sorted members) {key : String}
    (hnone : Entries.get? key members = none) (value : Json) :
    (put value (.member key) (some (.obj members))).without (.member key) = .obj members := by
  have htwice := Entries.alter_alter hsorted key (some value) none
  have hsame := Entries.alter_get? hsorted key
  rw [hnone] at hsame
  exact congrArg Json.obj (htwice.trans hsame)

end Json

namespace Jsonb

open Json

theorem get?_append (before beyond : List String) (j : Json) :
    get? (before ++ beyond) j = (get? before j).bind (get? beyond) := by
  induction before generalizing j with
  | nil => rfl
  | cons key before inside =>
    rw [List.cons_append, get?_cons, get?_cons key before]
    cases get? [key] j with
    | none => rfl
    | some child => exact inside child

/-! ## Edits below the first key -/

/-- An edit goes on in the child that the first key leads to. -/
theorem edit_of_leads {change : String → Json → Except ExecutionFault Json} {key next : String}
    {rest : List String} {step : Step} {j child : Json} (h : Leads [key] (some j) [step])
    (hchild : j.child? step = some child) :
    edit change (key :: next :: rest) j =
      (edit change (next :: rest) child).map fun c => put c step (some j) := by
  cases h with
  | @member _ _ members =>
    have hget : Entries.get? key members = some child := hchild
    rw [edit]
    · simp only [hget]
      cases edit change (next :: rest) child <;> rfl
    · simp
  | @item _ _ items i p _ hi hp =>
    have hget : items[p]? = some child := hchild
    rw [edit]
    · simp only [index, hi, bind, Except.bind, hp, Option.bind, hget, Option.map_some]
      cases edit change (next :: rest) child <;> rfl
    · simp

theorem exists_step_of_get? {key : String} {j child : Json} (h : get? [key] j = some child) :
    ∃ step, Leads [key] (some j) [step] ∧ j.child? step = some child := by
  obtain ⟨steps, hleads, hat⟩ := Leads.exists_of_get? h
  have hstep : ∃ step, steps = [step] := by
    cases hleads with
    | member hrest =>
      cases hrest
      exact ⟨_, rfl⟩
    | item _ _ hrest =>
      cases hrest
      exact ⟨_, rfl⟩
  obtain ⟨step, rfl⟩ := hstep
  rw [at?_singleton] at hat
  exact ⟨step, hleads, hat⟩

theorem exists_container_of_get? {keys : List String} (hne : keys ≠ []) {j target : Json}
    (h : get? keys j = some target) :
    ∃ parent last container, Leads keys (some j) (parent ++ [last]) ∧
      j.at? parent = some container ∧ container.child? last = some target := by
  obtain ⟨steps, hleads, hat⟩ := Leads.exists_of_get? h
  rcases List.eq_nil_or_concat' steps with rfl | ⟨parent, last, rfl⟩
  · exact absurd hleads.eq_nil hne
  · rw [at?_append] at hat
    obtain ⟨container, hcontainer, htarget⟩ := Option.bind_eq_some_iff.mp hat
    rw [at?_singleton] at htarget
    exact ⟨parent, last, container, hleads, hcontainer, htarget⟩

/-! ## Where a walk ends -/

/-- The keys lead to an array with a key that is no index. -/
inductive Blocked : List String → Json → Prop where
  | here {key : String} {rest : List String} {items : List Json} :
      index? key = none → Blocked (key :: rest) (.arr items)
  | inside {key : String} {rest : List String} {j child : Json} :
      get? [key] j = some child → Blocked rest child → Blocked (key :: rest) j

variable {key : String} {keys : List String} {j : Json}

theorem dead_obj {members : Json.Members} (h : Entries.get? key members = none) :
    Dead key (.obj members) where
  get_cons rest := by rw [get?, h]; rfl
  edit_cons change rest hrest := by
    obtain ⟨next, rest, rfl⟩ := List.exists_cons_of_ne_nil hrest
    rw [edit, h]
    simp

theorem position?_eq_none_of_get? {items : List Json} {i : Int} (hi : index? key = some i)
    (h : get? [key] (.arr items) = none) : position? i items.length = none := by
  cases hp : position? i items.length with
  | none => rfl
  | some p =>
    obtain ⟨child, hchild⟩ : ∃ child, items[p]? = some child :=
      ⟨_, List.getElem?_eq_getElem (position?_lt hp)⟩
    simp [get?, hi, hp, hchild] at h

/-- Where the walk ends with nothing, there is nothing to edit. -/
theorem dead_of_absent (hblocked : ¬ Blocked (key :: keys) j) (h : get? [key] j = none) :
    Dead key j := by
  cases j with
  | obj members => exact dead_obj (by simpa [get?] using h)
  | arr items =>
    cases hi : index? key with
    | none => exact absurd (.here hi) hblocked
    | some i => exact dead_arr hi (position?_eq_none_of_get? hi h)
  | _ => exact dead_scalar (by trivial) key

/-- At the last key there is nothing to delete. -/
theorem deleteAt_of_absent (hj : j.WellFormed) (hblocked : ¬ Blocked [key] j)
    (h : get? [key] j = none) : deleteAt key j = .ok j := by
  cases j with
  | obj members =>
    rw [wellFormed_obj] at hj
    have hsame := Entries.alter_get? hj.1 key
    have hnone : Entries.get? key members = none := by simpa [get?] using h
    rw [hnone] at hsame
    exact congrArg (Except.ok ∘ Json.obj) hsame
  | arr items =>
    cases hi : index? key with
    | none => exact absurd (.here hi) hblocked
    | some i =>
      simp only [deleteAt, index, hi, bind, Except.bind, position?_eq_none_of_get? hi h]
      rfl
  | _ => rfl

/-! ## Deleting -/

/-- Nothing is deleted where nothing is found. -/
theorem delete_of_absent (hj : j.WellFormed) (hblocked : ¬ Blocked keys j)
    (h : get? keys j = none) : delete keys j = .ok j := by
  induction keys generalizing j with
  | nil => cases h
  | cons key keys inside =>
    cases keys with
    | nil => exact deleteAt_of_absent hj hblocked h
    | cons next rest =>
      cases hget : get? [key] j with
      | none => exact (dead_of_absent hblocked hget).edit_cons _ _ (by simp)
      | some child =>
        obtain ⟨step, hleads, hchild⟩ := exists_step_of_get? hget
        rw [get?_cons, hget, Option.bind_some] at h
        have hrest := inside (hj.child? hchild) (fun hb => hblocked (.inside hget hb)) h
        rw [delete] at hrest ⊢
        rw [edit_of_leads hleads hchild, hrest]
        exact congrArg Except.ok (put_self hj hchild)

/-- A key that is no index of the array it comes to is a fault. -/
theorem delete_of_blocked (h : Blocked keys j) :
    ∃ key ∈ keys, delete keys j = .error (.notAnIndex key) := by
  induction h with
  | @here key rest items hi =>
    refine ⟨key, List.mem_cons_self, ?_⟩
    cases rest with
    | nil =>
      simp only [delete, edit, deleteAt, index, hi]
      rfl
    | cons next rest =>
      rw [delete, edit]
      · simp only [index, hi]
        rfl
      · simp
  | @inside key rest j child hget hblocked inside =>
    obtain ⟨bad, hmem, hrest⟩ := inside
    obtain ⟨step, hleads, hchild⟩ := exists_step_of_get? hget
    refine ⟨bad, List.mem_cons_of_mem _ hmem, ?_⟩
    cases rest with
    | nil => cases hmem
    | cons next rest =>
      rw [delete] at hrest ⊢
      rw [edit_of_leads hleads hchild, hrest]
      rfl

theorem deleteAt_of_leads {step : Step} {target : Json} (h : Leads [key] (some j) [step])
    (htarget : j.child? step = some target) : deleteAt key j = .ok (j.without step) := by
  cases h with
  | member _ => rfl
  | item hi hp _ =>
    simp only [deleteAt, index, hi, bind, Except.bind, hp]
    rfl

/-- What the keys lead to is taken out of its container. -/
theorem delete_of_leads {parent : List Step} {last : Step} {container target : Json}
    (h : Leads keys (some j) (parent ++ [last])) (hcontainer : j.at? parent = some container)
    (htarget : container.child? last = some target) :
    delete keys j = .ok (update (fun _ => container.without last) parent (some j)) := by
  induction parent generalizing keys j with
  | nil =>
    cases hcontainer
    obtain ⟨key, keys, rfl⟩ := h.exists_cons
    obtain rfl := h.rest.eq_nil
    exact deleteAt_of_leads h htarget
  | cons step parent inside =>
    obtain ⟨child, hchild, hparent⟩ := Option.bind_eq_some_iff.mp hcontainer
    obtain ⟨key, keys, rfl⟩ := h.exists_cons
    have hrest : Leads keys (some child) (parent ++ [last]) := by
      rw [← hchild]
      exact h.rest
    obtain ⟨next, rest, rfl⟩ : ∃ next rest, keys = next :: rest := by
      cases parent with
      | nil => exact hrest.exists_cons
      | cons => exact hrest.exists_cons
    have hdelete := inside hrest hparent
    rw [delete] at hdelete ⊢
    rw [edit_of_leads h.first hchild, hdelete, update, Option.bind_some, hchild]
    rfl

end Jsonb

namespace Patch

open Jsonb Json

variable {path : String} {body : Json}

theorem evaluate_remove (path : String) (body : Json) {keys : List String} (hne : keys ≠ [])
    (id : Cell) :
    evaluate ((remove path).assignment keys).sql.chars body ((remove path).params id keys) =
      match delete keys body with
      | .ok j => .ok (some j)
      | .error fault => .error (.execution fault) :=
  evaluate_assignment hne id (p := remove path) rfl

/-- A removal fails just where the walk comes to an array with a key that is
no index of it. -/
theorem delete_eq_error_iff (hbody : body.WellFormed) {keys : List String} (hne : keys ≠ []) :
    (∃ fault, delete keys body = .error fault) ↔ Blocked keys body := by
  constructor
  · rintro ⟨fault, hfault⟩
    by_contra hblocked
    cases hget : get? keys body with
    | none =>
      rw [delete_of_absent hbody hblocked hget] at hfault
      cases hfault
    | some target =>
      obtain ⟨parent, last, container, hleads, hcontainer, htarget⟩ :=
        exists_container_of_get? hne hget
      rw [delete_of_leads hleads hcontainer htarget] at hfault
      cases hfault
  · intro hblocked
    obtain ⟨key, -, hfault⟩ := delete_of_blocked hblocked
    exact ⟨_, hfault⟩

/-- A value that is set as a new member and removed again leaves the body. -/
theorem delete_of_set {value : Json} (hbody : body.WellFormed) {keys : List String}
    (hne : keys ≠ []) {members : Members} (hparent : get? keys.dropLast body = some (.obj members))
    (hnone : get? keys body = none) :
    ((write .set path value).outcome keys body >>= delete keys) = .ok body := by
  obtain ⟨before, key, rfl⟩ : ∃ before key, keys = before ++ [key] :=
    (List.eq_nil_or_concat' keys).resolve_left hne
  rw [List.dropLast_concat] at hparent
  obtain ⟨parent, hleads, hat⟩ := Leads.exists_of_get? hparent
  have hmissing : Entries.get? key members = none := by
    rw [get?_append, hparent, Option.bind_some] at hnone
    simpa [get?] using hnone
  have hmember : Leads (before ++ [key]) (some body) (parent ++ [.member key]) :=
    hleads.append_member key (.inr ⟨members, hat⟩)
  have hset : (write .set path value).outcome (before ++ [key]) body =
      .ok (update (update (fun _ => value) [.member key]) parent (some body)) := by
    rw [← update_append]
    exact outcome_of_leads (by simp) hmember hne
  rw [hset]
  have hfound := at?_update_of_some (f := update (fun _ => value) [.member key]) hat
  rw [← update_append] at hfound
  have hdelete := delete_of_leads (hmember.leads_update fun _ => value) hfound
    (Entries.get?_insert_self members key value)
  -- the container is as it was
  have hback : (update (fun _ => value) [.member key] (some (.obj members))).without (.member key) =
      .obj members :=
    without_put ((wellFormed_obj.mp (hbody.at? hat)).1) hmissing value
  rw [hback, update_append, hleads.update_update, update_self hbody hat] at hdelete
  exact hdelete

/-- A `$remove` fails where the walk is blocked, leaves the body where the
path leads to nothing, and else takes what it leads to out of its
container; after a `$set` of a new member it gives the old body back. -/
theorem remove_deletes (hpath : "" ∉ DocPath.parts path) (hbody : body.WellFormed) (table : Sql)
    (primaryKey : String) (id : Cell) :
    ∃ text bound,
      (remove path).statement table primaryKey id =
        .ok (updateSql table primaryKey text, bound) ∧
      ((∃ e, evaluate text.chars body bound = .error e) ↔ Blocked (DocPath.parts path) body) ∧
      (¬ Blocked (DocPath.parts path) body → get? (DocPath.parts path) body = none →
        evaluate text.chars body bound = .ok (some body)) ∧
      (∀ target, get? (DocPath.parts path) body = some target →
        ∃ parent last container r,
          Leads (DocPath.parts path) (some body) (parent ++ [last]) ∧
          body.at? parent = some container ∧ container.child? last = some target ∧
          evaluate text.chars body bound = .ok (some r) ∧
          r = update (fun _ => container.without last) parent (some body) ∧
          (∀ other, Apart parent other → r.at? other = body.at? other) ∧
          ∀ step rest, r.at? (parent ++ step :: rest) =
            (last.origin step).bind fun before => body.at? (parent ++ before :: rest)) ∧
      ∀ value members, (Json.read? value.text).isSome →
        get? (DocPath.parts path) body = none →
        get? (DocPath.parts path).dropLast body = some (.obj members) →
        ∃ setText setBound,
          (write .set path value).statement table primaryKey id =
            .ok (updateSql table primaryKey setText, setBound) ∧
          assignAll [(setText, setBound), (text, bound)] body = .ok body := by
  have hne := DocPath.parts_ne_nil path
  have hevaluate := evaluate_remove path body hne id
  refine ⟨_, _, statement_eq (p := remove path) hpath table primaryKey id, ?_, ?_, ?_, ?_⟩
  · show (∃ e, evaluate ((remove path).assignment (DocPath.parts path)).sql.chars body
      ((remove path).params id (DocPath.parts path)) = .error e) ↔ _
    rw [hevaluate, ← delete_eq_error_iff hbody hne]
    cases delete (DocPath.parts path) body with
    | ok j => simp
    | error fault => simp
  · intro hblocked hnone
    rw [delete_of_absent hbody hblocked hnone] at hevaluate
    exact hevaluate
  · intro target htarget
    obtain ⟨parent, last, container, hleads, hcontainer, hchild⟩ :=
      exists_container_of_get? hne htarget
    rw [delete_of_leads hleads hcontainer hchild] at hevaluate
    exact ⟨parent, last, container, _, hleads, hcontainer, hchild, hevaluate, rfl,
      fun other h => at?_update_of_apart h (some body),
      fun step rest => at?_update_without hcontainer hchild step rest⟩
  · intro value members hvalue hnone hparent
    refine ⟨_, _, statement_eq (p := write .set path value) hpath table primaryKey id, ?_⟩
    obtain ⟨new, hnew⟩ := Option.isSome_iff_exists.mp hvalue
    have hread : (write .set path value).reread? = some (write .set path new) := by
      rw [reread?, hnew, Option.map_some]
    have hpair := assignAll_pair hne hne hread (q := remove path) rfl id id body
    have hback : ((write .set path new).outcome (DocPath.parts path) body >>=
        (remove path).outcome (DocPath.parts path)) = .ok body :=
      delete_of_set hbody hne hparent hnone
    rw [hback] at hpair
    exact hpair

/-- The last item but one is the first one here, and the other one moves up;
a member `b` that was not there is set and removed again. -/
theorem remove_deletes_item :
    "" ∉ DocPath.parts "a.-2" ∧ "" ∉ DocPath.parts "b" ∧
    (Json.obj [("a", .arr [.null, .bool true])]).WellFormed ∧
    (Json.read? (Json.str "x").text).isSome ∧
    (∃ text bound,
      (remove "a.-2").statement [.name "notes"] "id" (.text "7") =
        .ok (updateSql [.name "notes"] "id" text, bound) ∧
      evaluate text.chars (.obj [("a", .arr [.null, .bool true])]) bound =
        .ok (some (.obj [("a", .arr [.bool true])]))) ∧
    ∃ text bound setText setBound,
      (remove "b").statement [.name "notes"] "id" (.text "7") =
        .ok (updateSql [.name "notes"] "id" text, bound) ∧
      (write .set "b" (.str "x")).statement [.name "notes"] "id" (.text "7") =
        .ok (updateSql [.name "notes"] "id" setText, setBound) ∧
      assignAll [(setText, setBound), (text, bound)] (.obj [("a", .arr [.null, .bool true])]) =
        .ok (.obj [("a", .arr [.null, .bool true])]) := by
  have hpath : "" ∉ DocPath.parts "a.-2" := by decide
  have hpath' : "" ∉ DocPath.parts "b" := by decide
  have hparts : DocPath.parts "a.-2" = ["a", "-2"] := by decide
  have hparts' : DocPath.parts "b" = ["b"] := by decide
  have hbody : (Json.obj [("a", .arr [.null, .bool true])]).WellFormed := by
    simp [Json.WellFormed, Json.AllMembers, Json.AllItems, Entries.Sorted]
  have hvalue : (Json.read? (Json.str "x").text).isSome := rfl
  obtain ⟨text, bound, hstatement, -, -, hpresent, -⟩ :=
    remove_deletes hpath hbody [.name "notes"] "id" (.text "7")
  obtain ⟨parent, last, container, r, hleads, hcontainer, -, hevaluate, hr, -⟩ :=
    hpresent .null (by rw [hparts]; rfl)
  obtain ⟨text', bound', hstatement', -, -, -, hback⟩ :=
    remove_deletes hpath' hbody [.name "notes"] "id" (.text "7")
  obtain ⟨setText, setBound, hset, hassign⟩ :=
    hback (.str "x") [("a", .arr [.null, .bool true])] hvalue (by rw [hparts']; rfl)
      (by rw [hparts']; rfl)
  refine ⟨hpath, hpath', hbody, hvalue, ⟨text, bound, hstatement, ?_⟩, text', bound', setText,
    setBound, hstatement', hset, hassign⟩
  have hwalk : Leads (DocPath.parts "a.-2")
      (some (.obj [("a", .arr [.null, .bool true])])) ([.member "a"] ++ [.item 0]) := by
    rw [hparts]
    exact .member (.item (i := -2) rfl rfl .here)
  obtain ⟨rfl, hlast⟩ := List.append_inj' (hleads.unique hwalk) rfl
  cases hlast
  cases hcontainer
  rw [hevaluate, hr]
  rfl

end Patch

end DocStore
