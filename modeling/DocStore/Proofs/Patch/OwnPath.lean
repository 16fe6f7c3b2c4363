import DocStore.Proofs.Patch.Assignment

/-!
# A patch and its own path

The path of a patch is in its statement twice over: as a parameter, and
cut short in the constants that create parents. All of them decode to
the keys they were made from, whatever characters those hold, and so the
assignment ends in a new body, or in a fault that the path itself has
run into.

Main statement: `assignment_decodes_own_path`.
-/

namespace DocStore

open Jsonb (Expr)

/-! ## The paths of an assignment -/

namespace Jsonb.Expr

mutual

/-- What is cast to an array of keys, from left to right. -/
def paths : Expr → List Expr
  | .cast e type => paths e ++ if type = "text[]" then [e] else []
  | .binary _ left right => paths left ++ paths right
  | .call _ args => argsPaths args
  | .stuck done => argsPaths done
  | _ => []

def argsPaths : List Expr → List Expr
  | [] => []
  | e :: rest => paths e ++ argsPaths rest

end

/-- The constants that are cast to arrays of keys. -/
def arrays (e : Expr) : List String :=
  e.paths.filterMap fun
    | .literal s => some s
    | _ => none

/-- The ordinals of the parameters that are cast to arrays of keys. -/
def arrayParams (e : Expr) : List Nat :=
  e.paths.filterMap fun
    | .param n => some n
    | _ => none

end Jsonb.Expr

namespace Patch

/-- The parents of a place, as constants. -/
def parentPaths (segments : List String) : List Expr :=
  (DocPath.parents segments).flatMap fun parent =>
    List.replicate 2 (.literal (DocPath.arrayText parent))

theorem paths_ensure (e : Expr) (parent : List String) :
    (ensure e parent).paths =
      e.paths ++ List.replicate 2 (.literal (DocPath.arrayText parent)) := rfl

/-- Every parent is written twice: where the object goes, and where the body
is asked for a value. -/
theorem paths_withParents (segments : List String) :
    (withParents segments).paths = parentPaths segments := by
  rw [parentPaths, List.flatMap_eq_foldl]
  exact (List.foldl_hom Expr.paths fun e parent => (paths_ensure e parent).symm).symm

/-- An item is appended to the array at the place, which is asked for as well. -/
theorem paths_write (segments : List String) (how : PatchWrite) (path : String) (value : Json) :
    (assignment segments (.write how path value)).paths =
      parentPaths segments ++ List.replicate (if how = .push then 2 else 1) (.param 2) := by
  rw [← paths_withParents]
  cases how with
  | set => exact congrArg ((withParents segments).paths ++ ·) rfl
  | insert => exact congrArg ((withParents segments).paths ++ ·) rfl
  | push => exact congrArg ((withParents segments).paths ++ ·) rfl

theorem keys_arrays_write (segments : List String) (how : PatchWrite) (path : String)
    (value : Json) :
    (assignment segments (.write how path value)).arrays.map Jsonb.keys? =
      (List.range (segments.length - 1)).flatMap fun n =>
        List.replicate 2 (some (segments.take (n + 1))) := by
  have harrays : (assignment segments (.write how path value)).arrays =
      (DocPath.parents segments).flatMap fun parent =>
        List.replicate 2 (DocPath.arrayText parent) := by
    rw [Expr.arrays, paths_write, List.filterMap_append, parentPaths, List.filterMap_flatMap]
    cases how <;> exact List.append_nil _
  rw [harrays, List.map_flatMap, DocPath.parents, List.flatMap_map, List.flatMap_def,
    List.flatMap_def]
  congr 1
  apply List.map_congr_left
  intro n hn
  have hne : segments.take (n + 1) ≠ [] :=
    DocPath.parents_ne_nil _ (List.mem_map_of_mem hn)
  rw [List.map_replicate, Jsonb.keys?_arrayText hne]

theorem arrayParams_write (segments : List String) (how : PatchWrite) (path : String)
    (value : Json) :
    (assignment segments (.write how path value)).arrayParams =
      List.replicate (if how = .push then 2 else 1) 2 := by
  have hconstants : (parentPaths segments).filterMap
      (fun | .param n => some n | _ => none) = [] := by
    rw [parentPaths, List.filterMap_flatMap, List.flatMap_eq_nil_iff]
    exact fun _ _ => rfl
  rw [Expr.arrayParams, paths_write, List.filterMap_append, hconstants]
  cases how <;> rfl

/-! ## Faults -/

/-- What an edit can run into on its way along `segments`. -/
def PathFault (segments : List String) (fault : ExecutionFault) : Prop :=
  (∃ key ∈ segments, fault = .notAnIndex key) ∨ fault = .existingKey

theorem PathFault.mono {some all : List String} {fault : ExecutionFault}
    (h : PathFault some fault) (hsub : ∀ key ∈ some, key ∈ all) : PathFault all fault := by
  rcases h with ⟨key, hkey, rfl⟩ | rfl
  · exact .inl ⟨key, hsub key hkey, rfl⟩
  · exact .inr rfl

section Faults

open Jsonb

variable {fault : ExecutionFault}

theorem pathFault_index {key : String} (h : index key = .error fault) : PathFault [key] fault := by
  unfold index at h
  split at h
  · cases h
  · cases h
    exact .inl ⟨key, List.mem_singleton_self key, rfl⟩

theorem pathFault_putAt {create : Bool} {new : Json} {key : String} {j : Json}
    (h : putAt create new key j = .error fault) : PathFault [key] fault := by
  cases j with
  | obj members =>
    rw [putAt] at h
    split at h <;> cases h
  | arr items =>
    rw [putAt] at h
    rcases bind_eq_error h with h | ⟨i, -, h⟩
    · exact pathFault_index h
    · repeat' split at h
      all_goals cases h
  | _ => cases h

theorem pathFault_insertAt {new : Json} {key : String} {j : Json}
    (h : insertAt new key j = .error fault) : PathFault [key] fault := by
  cases j with
  | obj members =>
    rw [insertAt] at h
    split at h
    · cases h
      exact .inr rfl
    · cases h
  | arr items =>
    rw [insertAt] at h
    rcases bind_eq_error h with h | ⟨i, -, h⟩
    · exact pathFault_index h
    · repeat' split at h
      all_goals cases h
  | _ => cases h

theorem pathFault_deleteAt {key : String} {j : Json} (h : deleteAt key j = .error fault) :
    PathFault [key] fault := by
  cases j with
  | arr items =>
    rw [deleteAt] at h
    rcases bind_eq_error h with h | ⟨i, -, h⟩
    · exact pathFault_index h
    · split at h <;> cases h
  | _ => cases h

theorem pathFault_edit {change : String → Json → Except ExecutionFault Json}
    (hchange : ∀ {key j}, change key j = .error fault → PathFault [key] fault) :
    ∀ (segments : List String) (j : Json), edit change segments j = .error fault →
      PathFault segments fault
  | [], _, h => by cases h
  | [key], j, h => hchange (by rw [← h, edit])
  | key :: next :: rest, .obj members, h => by
    rw [edit] at h
    split at h
    · rename_i child _
      rcases bind_eq_error h with h | ⟨_, -, h⟩
      · exact (pathFault_edit hchange (next :: rest) child h).mono fun _ => List.mem_cons_of_mem _
      · cases h
    · cases h
    · simp
  | key :: next :: rest, .arr items, h => by
    rw [edit] at h
    · rcases bind_eq_error h with h | ⟨i, -, h⟩
      · exact (pathFault_index h).mono (by simp)
      · split at h
        · rename_i p child _
          rcases bind_eq_error h with h | ⟨_, -, h⟩
          · exact (pathFault_edit hchange (next :: rest) child h).mono
              fun _ => List.mem_cons_of_mem _
          · cases h
        · cases h
    · simp
  | _ :: _ :: _, .null, h => by cases h
  | _ :: _ :: _, .bool _, h => by cases h
  | _ :: _ :: _, .num _, h => by cases h
  | _ :: _ :: _, .str _, h => by cases h

theorem pathFault_grow {body : Json} {segments : List String} :
    ∀ {parents : List (List String)} {j : Json},
      (∀ parent ∈ parents, ∀ key ∈ parent, key ∈ segments) →
      grow body parents j = .error fault → PathFault segments fault
  | [], _, _, h => by cases h
  | parent :: rest, j, hsub, h => by
    rw [List.forall_mem_cons] at hsub
    rw [grow] at h
    rcases bind_eq_error h with h | ⟨j', -, h⟩
    · exact (pathFault_edit pathFault_putAt parent j h).mono hsub.1
    · exact pathFault_grow hsub.2 h

/-- A patch fails only at a key of its own path. -/
theorem pathFault_outcome {segments : List String} {body : Json} {p : Patch}
    (h : p.outcome segments body = .error fault) : PathFault segments fault := by
  cases p with
  | remove path => exact pathFault_edit pathFault_deleteAt segments body h
  | write how path value =>
    rw [outcome] at h
    rcases bind_eq_error h with h | ⟨j, -, h⟩
    · refine pathFault_grow ?_ h
      intro parent hparent key hkey
      exact (DocPath.mem_parents_iff.mp hparent).1.subset hkey
    · refine pathFault_edit ?_ segments j h
      intro key j h
      cases how with
      | set => exact pathFault_putAt h
      | insert => exact pathFault_insertAt h
      | push => exact pathFault_putAt h

end Faults

/-! ## Own path -/

/-- The assignment of a patch, evaluated with the parameters of its own
statement: the second parameter is the path of the patch and the only one that
is read as a path, the constants are the beginnings of that path, and there is
a new body unless the walk along the path runs into a fault. -/
theorem assignment_decodes_own_path {p : Patch} (hpath : "" ∉ DocPath.parts p.path)
    (hvalue : ∀ v ∈ p.value?, (Json.read? v.text).isSome) (table : Sql) (primaryKey : String)
    (id : Cell) (body : Json) :
    ∃ text bound e,
      p.statement table primaryKey id = .ok (updateSql table primaryKey text, bound) ∧
      (Jsonb.Token.scan .between text.chars).map Expr.ofTokens = some e ∧
      e.arrayParams =
        (match p with
        | .write .push _ _ => [2, 2]
        | _ => [2]) ∧
      (Jsonb.parameter bound 2 >>= Jsonb.castTo "text[]") =
        .ok (.path (DocPath.parts p.path)) ∧
      e.arrays.map Jsonb.keys? =
        (match p with
        | .write _ path _ =>
          (List.range ((DocPath.parts path).length - 1)).flatMap fun n =>
            List.replicate 2 (some ((DocPath.parts path).take (n + 1)))
        | .remove _ => []) ∧
      ((∃ new, Jsonb.evaluate text.chars body bound = .ok (some new)) ∨
        ∃ fault, Jsonb.evaluate text.chars body bound = .error (.execution fault) ∧
          ((∃ key ∈ DocPath.parts p.path, fault = .notAnIndex key) ∨ fault = .existingKey)) := by
  have hne := DocPath.parts_ne_nil p.path
  refine ⟨_, _, _, statement_eq hpath table primaryKey id, scan_assignment _ p, ?_, ?_, ?_, ?_⟩
  · cases p with
    | write how path value =>
      rw [arrayParams_write]
      cases how <;> rfl
    | remove path => rfl
  · cases p with
    | write how path value =>
      exact eval_pathParam body id [.text value.text] hne
    | remove path => exact eval_pathParam body id [] hne
  · cases p with
    | write how path value => exact keys_arrays_write _ how path value
    | remove path => rfl
  · -- the value may be read as another one, and the path is the same for all
    obtain ⟨q, hq⟩ := exists_reread hvalue
    rw [evaluate_assignment hne id hq]
    cases h : q.outcome (DocPath.parts p.path) body with
    | ok new => exact .inl ⟨new, rfl⟩
    | error fault => exact .inr ⟨fault, rfl, pathFault_outcome h⟩

/-- A path with both kinds of quotes, a backslash, and the words of a statement. -/
theorem assignment_decodes_own_path_quotes :
    "" ∉ DocPath.parts "a'b\".c, set body = $2 where \\" ∧
    (Json.read? (Json.str "it's").text).isSome ∧
    ∃ text bound e,
      (Patch.write .push "a'b\".c, set body = $2 where \\" (.str "it's")).statement
        [.name "notes"] "id" (.text "x") = .ok (updateSql [.name "notes"] "id" text, bound) ∧
      (Jsonb.Token.scan .between text.chars).map Expr.ofTokens = some e ∧
      e.arrayParams = [2, 2] ∧
      e.arrays.map Jsonb.keys? = [some ["a'b\""], some ["a'b\""]] ∧
      (Jsonb.parameter bound 2 >>= Jsonb.castTo "text[]") =
        .ok (.path ["a'b\"", "c, set body = $2 where \\"]) ∧
      ((∃ new, Jsonb.evaluate text.chars (.obj []) bound = .ok (some new)) ∨
        ∃ fault, Jsonb.evaluate text.chars (.obj []) bound = .error (.execution fault) ∧
          ((∃ key ∈ DocPath.parts "a'b\".c, set body = $2 where \\",
            fault = .notAnIndex key) ∨ fault = .existingKey)) := by
  have hpath : "" ∉ DocPath.parts "a'b\".c, set body = $2 where \\" := by decide
  have hvalue : (Json.read? (Json.str "it's").text).isSome := rfl
  obtain ⟨text, bound, e, hstatement, hscan, hparams, hparam, harrays, hresult⟩ :=
    assignment_decodes_own_path
      (p := .write .push "a'b\".c, set body = $2 where \\" (.str "it's"))
      hpath (by rintro v ⟨⟩; exact hvalue) [.name "notes"] "id" (.text "x") (.obj [])
  exact ⟨hpath, hvalue, text, bound, e, hstatement, hscan, hparams, harrays, hparam, hresult⟩

end Patch

end DocStore
