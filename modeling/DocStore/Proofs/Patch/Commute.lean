import DocStore.Proofs.Patch.Place

/-!
# Patches of different places

Two patches may be carried out in either order if neither path begins
with the other and neither runs through an array. Where the paths part,
they go to different members of one object; before that, both go on in
the same member. So the proof follows the keys the two paths share: at
each of them a patch of an object comes down to a change of one entry
(`outcome_obj`), given what was there or that nothing was.

It does not matter which of the two creates the parents they share. To
remove something from an object that was just made changes nothing.

Main statement: `assignAll_comm`.
-/

namespace DocStore

namespace Jsonb

/-- The body after assignments in turn, each with its parameters. A null
body is not stored. -/
def assignAll : List (Sql × List Cell) → Json → Except DbError Json
  | [], body => .ok body
  | (text, bound) :: rest, body => do
    match ← evaluate text.chars body bound with
    | some body => assignAll rest body
    | none => .error (.execution .nullBody)

/-- Before its end the path comes to an array. -/
def ThroughArray (keys : List String) (j : Json) : Prop :=
  ∃ before beyond items, keys = before ++ beyond ∧ beyond ≠ [] ∧ get? before j = some (.arr items)

namespace ThroughArray

variable {key : String} {keys : List String}

theorem of_arr (h : keys ≠ []) (items : List Json) : ThroughArray keys (.arr items) :=
  ⟨[], keys, items, rfl, h, rfl⟩

theorem of_child {members : Json.Members} {child : Json}
    (hchild : Entries.get? key members = some child) (h : ThroughArray keys child) :
    ThroughArray (key :: keys) (.obj members) := by
  obtain ⟨before, beyond, items, rfl, hne, hget⟩ := h
  refine ⟨key :: before, beyond, items, rfl, hne, ?_⟩
  rw [get?, hchild]
  exact hget

theorem not_empty : ¬ ThroughArray keys (.obj []) := by
  rintro ⟨before, beyond, items, -, -, hget⟩
  cases before with
  | nil => cases hget
  | cons key before => cases hget

end ThroughArray

end Jsonb

namespace Patch

open Jsonb

/-! ## One member of an object -/

section Member

variable {key next : String} {rest keys : List String}

/-- What a patch makes of the member under the first key of its path, from
which `rest` goes on; none stands for no member. -/
def onMember (p : Patch) (rest : List String) (old : Option Json) :
    Except ExecutionFault (Option Json) :=
  match p, rest, old with
  | .write .insert _ _, [], some _ => .error .existingKey
  | .write how _ value, [], old => .ok (some (how.written old value))
  | .remove _, [], _ => .ok none
  | p, rest, some child => (p.outcome rest child).map some
  | .write how path value, rest, none => ((write how path value).outcome rest (.obj [])).map some
  | .remove _, _, none => .ok none

theorem onMember_none_write (how : PatchWrite) (path : String) (value : Json) (next : String)
    (rest : List String) :
    (write how path value).onMember (next :: rest) none =
      ((write how path value).outcome (next :: rest) (.obj [])).map some := by
  cases how <;> rfl

theorem onMember_some (p : Patch) (next : String) (rest : List String) (child : Json) :
    p.onMember (next :: rest) (some child) = (p.outcome (next :: rest) child).map some := by
  cases p with
  | write how path value => cases how <;> rfl
  | remove path => rfl

theorem bind_onMember (p q : Patch) (keys : List String) (next : String) (rest : List String)
    (child : Json) :
    ((p.outcome keys child).map some >>= q.onMember (next :: rest)) =
      (p.outcome keys child >>= q.outcome (next :: rest)).map some := by
  cases p.outcome keys child with
  | error fault => rfl
  | ok child => exact onMember_some q next rest child

/-- There is nothing to remove from an object without members. -/
theorem outcome_remove_empty (h : keys ≠ []) (path : String) :
    (remove path).outcome keys (.obj []) = .ok (.obj []) := by
  obtain ⟨key, rest, rfl⟩ := List.exists_cons_of_ne_nil h
  cases rest <;> rfl

theorem outcome_write_obj (how : PatchWrite) (path : String) (value : Json) (key : String)
    (rest : List String) (members : Json.Members) :
    (write how path value).outcome (key :: rest) (.obj members) =
      ((write how path value).onMember rest (Entries.get? key members)).map
        fun child => .obj (Entries.alter key child members) := by
  cases rest with
  | nil =>
    have hget : get? [key] (.obj members) = Entries.get? key members := by simp [get?]
    show how.change (how.written (get? [key] (.obj members)) value) key (.obj members) = _
    rw [hget]
    cases how with
    | set => rfl
    | push => rfl
    | insert =>
      rw [PatchWrite.change, insertAt, Entries.contains]
      cases Entries.get? key members <;> rfl
  | cons next rest =>
    rw [outcome_member]
    cases Entries.get? key members with
    | some child =>
      rw [onMember_some, Option.getD_some]
      cases (write how path value).outcome (next :: rest) child <;> rfl
    | none =>
      rw [onMember_none_write, Option.getD_none]
      cases (write how path value).outcome (next :: rest) (.obj []) <;> rfl

theorem outcome_remove_obj {members : Json.Members} (hsorted : Entries.Sorted members)
    (path key : String) (rest : List String) :
    (remove path).outcome (key :: rest) (.obj members) =
      ((remove path).onMember rest (Entries.get? key members)).map
        fun child => .obj (Entries.alter key child members) := by
  cases rest with
  | nil => rfl
  | cons next rest =>
    cases hchild : Entries.get? key members with
    | some child =>
      have hedit := (child_obj key members).edit_cons deleteAt (next :: rest) child (by simp)
      rw [Entries.insert_eq_self hsorted hchild] at hedit
      rw [onMember_some, outcome, outcome, Jsonb.delete, Jsonb.delete, hedit]
      cases edit deleteAt (next :: rest) child <;> rfl
    | none =>
      have hedit : edit deleteAt (key :: next :: rest) (.obj members) = .ok (.obj members) := by
        rw [edit, hchild]
        simp
      have hsame := Entries.alter_get? hsorted key
      rw [hchild] at hsame
      rw [outcome, Jsonb.delete, hedit]
      show _ = Except.ok (Json.obj (Entries.alter key none members))
      rw [hsame]

/-- A patch of an object changes one entry. -/
theorem outcome_obj {members : Json.Members} (hsorted : Entries.Sorted members) (p : Patch)
    (key : String) (rest : List String) :
    p.outcome (key :: rest) (.obj members) =
      (p.onMember rest (Entries.get? key members)).map
        fun child => .obj (Entries.alter key child members) := by
  cases p with
  | write how path value => exact outcome_write_obj how path value key rest members
  | remove path => exact outcome_remove_obj hsorted path key rest

/-- A patch of something that is neither an object nor an array leaves it. -/
theorem outcome_scalar {j : Json} (h : Scalar j) (p : Patch) (key : String) (rest : List String) :
    p.outcome (key :: rest) j = .ok j := by
  cases p with
  | write how path value =>
    have hput : ∀ new, putAt true new key j = .ok j := by
      intro new
      cases j with
      | obj | arr => exact h.elim
      | _ => rfl
    cases rest with
    | nil =>
      cases how with
      | set | push => exact hput _
      | insert =>
        cases j with
        | obj | arr => exact h.elim
        | _ => rfl
    | cons next rest => exact outcome_dead (dead_scalar h key) (hput _)
  | remove path =>
    cases rest with
    | nil =>
      cases j with
      | obj | arr => exact h.elim
      | _ => rfl
    | cons next rest => exact (dead_scalar h key).edit_cons _ _ (by simp)

end Member

/-! ## The only fault -/

/-- Off the arrays, a patch fails only where it would insert a member that is
there already. -/
theorem existingKey_of_outcome {p : Patch} {fault : ExecutionFault} :
    ∀ {keys : List String} {body : Json}, body.WellFormed → ¬ ThroughArray keys body →
      p.outcome keys body = .error fault → fault = .existingKey
  | [], _, _, _, h => by cases p <;> cases h
  | key :: rest, body, hbody, harray, h => by
    cases body with
    | arr items => exact absurd (.of_arr (by simp) items) harray
    | obj members =>
      rw [Json.wellFormed_obj] at hbody
      rw [outcome_obj hbody.1] at h
      have h := map_eq_error h
      cases hchild : Entries.get? key members with
      | some child =>
        have hbelow : ¬ ThroughArray rest child := fun hbelow => harray (.of_child hchild hbelow)
        rw [hchild] at h
        cases rest with
        | nil =>
          obtain ⟨how, _, _⟩ | _ := p
          · cases how <;> cases h
            rfl
          · cases h
        | cons next rest =>
          rw [onMember_some] at h
          exact existingKey_of_outcome (hbody.2 _ (Entries.mem_of_get? hchild)) hbelow
            (map_eq_error h)
      | none =>
        rw [hchild] at h
        cases p with
        | remove path => cases rest <;> cases h
        | write how path value =>
          cases rest with
          | nil => cases how <;> cases h
          | cons next rest =>
            rw [onMember_none_write] at h
            exact existingKey_of_outcome
              (by simp [Json.WellFormed, Json.AllMembers, Entries.Sorted])
              ThroughArray.not_empty (map_eq_error h)
    | _ =>
      rw [outcome_scalar (by trivial)] at h
      cases h

/-! ## Two patches of one object -/

section TwoPatches

variable {p q : Patch} {members : Json.Members} {key other : String} {rest beyond : List String}

theorem outcome_same_member (hsorted : Entries.Sorted members) :
    (p.outcome (key :: rest) (.obj members) >>= q.outcome (key :: beyond)) =
      (p.onMember rest (Entries.get? key members) >>= q.onMember beyond).map
        fun child => .obj (Entries.alter key child members) := by
  rw [outcome_obj hsorted]
  cases p.onMember rest (Entries.get? key members) with
  | error fault => rfl
  | ok child =>
    show q.outcome (key :: beyond) (.obj (Entries.alter key child members)) =
      (q.onMember beyond child).map _
    rw [outcome_obj (hsorted.alter key child), Entries.get?_alter, if_pos rfl]
    simp only [Entries.alter_alter hsorted]

theorem outcome_other_member (hsorted : Entries.Sorted members) (hne : key ≠ other) :
    (p.outcome (key :: rest) (.obj members) >>= q.outcome (other :: beyond)) = (do
      let first ← p.onMember rest (Entries.get? key members)
      let second ← q.onMember beyond (Entries.get? other members)
      return .obj (Entries.alter other second (Entries.alter key first members))) := by
  rw [outcome_obj hsorted]
  cases p.onMember rest (Entries.get? key members) with
  | error fault => rfl
  | ok first =>
    show q.outcome (other :: beyond) (.obj (Entries.alter key first members)) = _
    rw [outcome_obj (hsorted.alter key first), Entries.get?_alter, if_neg hne]
    rfl

end TwoPatches

/-! ## Either order -/

/-- What the two patches make of one member does not depend on the order,
given that it does not for a child and for an empty object. -/
theorem onMember_comm {p q : Patch} {s t : List String} (hs : s ≠ []) (ht : t ≠ [])
    {old : Option Json}
    (h : ∀ child, child ∈ old ∨ child = .obj [] →
      (p.outcome s child >>= q.outcome t) = (q.outcome t child >>= p.outcome s)) :
    (p.onMember s old >>= q.onMember t) = (q.onMember t old >>= p.onMember s) := by
  obtain ⟨next, s, rfl⟩ := List.exists_cons_of_ne_nil hs
  obtain ⟨other, t, rfl⟩ := List.exists_cons_of_ne_nil ht
  cases old with
  | some child =>
    rw [onMember_some, onMember_some, bind_onMember, bind_onMember, h child (.inl rfl)]
  | none =>
    have h := h (.obj []) (.inr rfl)
    cases p with
    | write how path value =>
      cases q with
      | write how' path' value' =>
        rw [onMember_none_write, onMember_none_write, bind_onMember, bind_onMember, h]
      | remove path' =>
        rw [onMember_none_write, bind_onMember, h, outcome_remove_empty ht]
        exact (onMember_none_write ..).symm
    | remove path =>
      cases q with
      | write how' path' value' =>
        rw [onMember_none_write, bind_onMember, ← h, outcome_remove_empty hs]
        exact onMember_none_write ..
      | remove path' => rfl

theorem outcome_comm {p q : Patch} : ∀ {s t : List String} {body : Json}, ¬ s <+: t → ¬ t <+: s →
    body.WellFormed → ¬ ThroughArray s body → ¬ ThroughArray t body →
    (p.outcome s body >>= q.outcome t) = (q.outcome t body >>= p.outcome s)
  | [], t, _, hst, _, _, _, _ => absurd (List.nil_prefix) hst
  | s, [], _, _, hts, _, _, _ => absurd (List.nil_prefix) hts
  | key :: s, other :: t, body, hst, hts, hbody, hsarr, htarr => by
    cases body with
    | arr items => exact absurd (.of_arr (by simp) items) hsarr
    | obj members =>
      rw [Json.wellFormed_obj] at hbody
      by_cases hkey : key = other
      · subst hkey
        rw [List.cons_prefix_cons] at hst hts
        have hst : ¬ s <+: t := fun h => hst ⟨rfl, h⟩
        have hts : ¬ t <+: s := fun h => hts ⟨rfl, h⟩
        have hmember : (p.onMember s (Entries.get? key members) >>= q.onMember t) =
            (q.onMember t (Entries.get? key members) >>= p.onMember s) := by
          have hs : s ≠ [] := by
            rintro rfl
            exact hst List.nil_prefix
          have ht : t ≠ [] := by
            rintro rfl
            exact hts List.nil_prefix
          apply onMember_comm hs ht
          rintro child (hchild | rfl)
          · have hwf := hbody.2 _ (Entries.mem_of_get? hchild)
            exact outcome_comm hst hts hwf (fun h => hsarr (.of_child hchild h))
              (fun h => htarr (.of_child hchild h))
          · exact outcome_comm hst hts
              (by simp [Json.WellFormed, Json.AllMembers, Entries.Sorted])
              ThroughArray.not_empty ThroughArray.not_empty
        rw [outcome_same_member hbody.1, outcome_same_member hbody.1, hmember]
      · rw [outcome_other_member hbody.1 hkey, outcome_other_member hbody.1 (Ne.symm hkey)]
        cases hfirst : p.onMember s (Entries.get? key members) with
        | ok first =>
          cases hsecond : q.onMember t (Entries.get? other members) with
          | ok second =>
            show Except.ok (Json.obj _) = .ok (.obj _)
            rw [Entries.alter_comm hbody.1 hkey]
          | error fault => rfl
        | error fault =>
          cases hsecond : q.onMember t (Entries.get? other members) with
          | ok second => rfl
          | error fault' =>
            -- both are the fault of an insertion
            have houtcome : p.outcome (key :: s) (.obj members) = .error fault := by
              rw [outcome_obj hbody.1, hfirst]
              rfl
            have houtcome' : q.outcome (other :: t) (.obj members) = .error fault' := by
              rw [outcome_obj hbody.1, hsecond]
              rfl
            rw [← Json.wellFormed_obj] at hbody
            rw [existingKey_of_outcome hbody hsarr houtcome,
              existingKey_of_outcome hbody htarr houtcome']
            rfl
    | _ =>
      rw [outcome_scalar (by trivial), outcome_scalar (by trivial)]
      show q.outcome _ _ = p.outcome _ _
      rw [outcome_scalar (by trivial), outcome_scalar (by trivial)]

/-! ## The statements in either order -/

theorem assignAll_pair {s t : List String} (hs : s ≠ []) (ht : t ≠ []) {p p' q q' : Patch}
    (hp : p.reread? = some p') (hq : q.reread? = some q') (id id' : Cell) (body : Json) :
    assignAll [((p.assignment s).sql, p.params id s), ((q.assignment t).sql, q.params id' t)] body =
      (p'.outcome s body >>= q'.outcome t).mapError DbError.execution := by
  rw [assignAll, evaluate_assignment hs id hp]
  cases p'.outcome s body with
  | error fault => rfl
  | ok first =>
    show assignAll [((q.assignment t).sql, q.params id' t)] first = _
    rw [assignAll, evaluate_assignment ht id' hq]
    show _ = (q'.outcome t first).mapError DbError.execution
    cases q'.outcome t first <;> rfl

/-- Two patches come to the same in either order, also to the same fault, if
neither path begins with the other and neither goes on in an array. -/
theorem assignAll_comm {p q : Patch} (hp : "" ∉ DocPath.parts p.path)
    (hq : "" ∉ DocPath.parts q.path)
    (hpvalue : ∀ v ∈ p.value?, (Json.read? v.text).isSome)
    (hqvalue : ∀ v ∈ q.value?, (Json.read? v.text).isSome)
    (hpq : ¬ DocPath.parts p.path <+: DocPath.parts q.path)
    (hqp : ¬ DocPath.parts q.path <+: DocPath.parts p.path)
    {body : Json} (hbody : body.WellFormed)
    (hparray : ¬ ThroughArray (DocPath.parts p.path) body)
    (hqarray : ¬ ThroughArray (DocPath.parts q.path) body)
    (table : Sql) (primaryKey : String) (id : Cell) :
    ∃ first second : Sql × List Cell,
      p.statement table primaryKey id = .ok (updateSql table primaryKey first.1, first.2) ∧
      q.statement table primaryKey id = .ok (updateSql table primaryKey second.1, second.2) ∧
      assignAll [first, second] body = assignAll [second, first] body := by
  obtain ⟨p', hp'⟩ := exists_reread hpvalue
  obtain ⟨q', hq'⟩ := exists_reread hqvalue
  let s := DocPath.parts p.path
  let t := DocPath.parts q.path
  refine ⟨((p.assignment s).sql, p.params id s), ((q.assignment t).sql, q.params id t),
    statement_eq hp table primaryKey id, statement_eq hq table primaryKey id, ?_⟩
  rw [assignAll_pair (DocPath.parts_ne_nil _) (DocPath.parts_ne_nil _) hp' hq',
    assignAll_pair (DocPath.parts_ne_nil _) (DocPath.parts_ne_nil _) hq' hp',
    outcome_comm hpq hqp hbody hparray hqarray]

/-- Both patches need the parents `a` and `a.b`, and the body has neither. -/
theorem assignAll_comm_shared_parents :
    "" ∉ DocPath.parts "a.b.c" ∧ "" ∉ DocPath.parts "a.b.d" ∧
    (Json.read? (Json.str "x").text).isSome ∧
    ¬ DocPath.parts "a.b.c" <+: DocPath.parts "a.b.d" ∧
    ¬ DocPath.parts "a.b.d" <+: DocPath.parts "a.b.c" ∧
    (Json.obj [("k", .arr [.null])]).WellFormed ∧
    ¬ ThroughArray (DocPath.parts "a.b.c") (.obj [("k", .arr [.null])]) ∧
    ¬ ThroughArray (DocPath.parts "a.b.d") (.obj [("k", .arr [.null])]) ∧
    ∃ first second : Sql × List Cell,
      (write .insert "a.b.c" (.str "x")).statement [.name "notes"] "id" (.text "7") =
        .ok (updateSql [.name "notes"] "id" first.1, first.2) ∧
      (write .push "a.b.d" (.str "x")).statement [.name "notes"] "id" (.text "7") =
        .ok (updateSql [.name "notes"] "id" second.1, second.2) ∧
      assignAll [first, second] (.obj [("k", .arr [.null])]) =
        assignAll [second, first] (.obj [("k", .arr [.null])]) := by
  have hp : "" ∉ DocPath.parts "a.b.c" := by decide
  have hq : "" ∉ DocPath.parts "a.b.d" := by decide
  have hvalue : (Json.read? (Json.str "x").text).isSome := rfl
  have hpq : ¬ DocPath.parts "a.b.c" <+: DocPath.parts "a.b.d" := by decide
  have hqp : ¬ DocPath.parts "a.b.d" <+: DocPath.parts "a.b.c" := by decide
  have hbody : (Json.obj [("k", .arr [.null])]).WellFormed := by
    simp [Json.WellFormed, Json.AllMembers, Json.AllItems, Entries.Sorted]
  -- the body has nothing under `a`
  have harray : ∀ rest, ¬ ThroughArray ("a" :: rest) (.obj [("k", .arr [.null])]) := by
    rintro rest ⟨before, beyond, items, heq, -, hget⟩
    cases before with
    | nil => cases hget
    | cons key before =>
      cases heq
      cases hget
  exact ⟨hp, hq, hvalue, hpq, hqp, hbody, harray _, harray _,
    assignAll_comm (p := write .insert "a.b.c" (.str "x")) (q := write .push "a.b.d" (.str "x"))
      hp hq (by rintro v ⟨⟩; exact hvalue) (by rintro v ⟨⟩; exact hvalue) hpq hqp
      hbody (harray _) (harray _) [.name "notes"] "id" (.text "7")⟩

end Patch

end DocStore
