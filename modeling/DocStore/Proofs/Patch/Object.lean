import DocStore.Proofs.Patch.Assignment

/-!
# A patched object is an object

An edit that starts in an object ends in an object: it changes a member,
or something inside of one. So the body of a document stays an object
under every patch, also if the value it writes is read as another one.

Main statement: `object_of_evaluate`.
-/

namespace DocStore

/-- The value is an object. -/
def Json.IsObject (j : Json) : Prop := ∃ members, j = .obj members

namespace Patch

open Jsonb

/-- The change of a container makes objects of objects. -/
def KeepsObjects (change : String → Json → Except ExecutionFault Json) : Prop :=
  ∀ {key members r}, change key (.obj members) = .ok r → r.IsObject

theorem keepsObjects_putAt (create : Bool) (new : Json) : KeepsObjects (putAt create new) := by
  intro key members r h
  rw [putAt] at h
  split at h <;> cases h <;> exact ⟨_, rfl⟩

theorem keepsObjects_insertAt (new : Json) : KeepsObjects (insertAt new) := by
  intro key members r h
  rw [insertAt] at h
  split at h
  · cases h
  · cases h
    exact ⟨_, rfl⟩

theorem keepsObjects_deleteAt : KeepsObjects deleteAt := by
  intro key members r h
  cases h
  exact ⟨_, rfl⟩

theorem keepsObjects_change (how : PatchWrite) (new : Json) : KeepsObjects (how.change new) := by
  cases how with
  | set => exact keepsObjects_putAt true new
  | insert => exact keepsObjects_insertAt new
  | push => exact keepsObjects_putAt true new

theorem object_of_edit {change : String → Json → Except ExecutionFault Json}
    (hchange : KeepsObjects change) : ∀ {segments : List String} {j r : Json}, j.IsObject →
      edit change segments j = .ok r → r.IsObject
  | [], _, _, hj, h => by
    cases h
    exact hj
  | [key], _, _, ⟨members, rfl⟩, h => hchange (by rw [← h, edit])
  | key :: next :: rest, _, r, ⟨members, rfl⟩, h => by
    rw [edit] at h
    · split at h
      · obtain ⟨c, -, h⟩ := bind_eq_ok h
        cases h
        exact ⟨_, rfl⟩
      · cases h
        exact ⟨_, rfl⟩
    · simp

theorem object_of_grow {body : Json} : ∀ {parents : List (List String)} {j r : Json}, j.IsObject →
    grow body parents j = .ok r → r.IsObject
  | [], _, _, hj, h => by
    cases h
    exact hj
  | parent :: rest, j, r, hj, h => by
    rw [grow] at h
    obtain ⟨j', hset, h⟩ := bind_eq_ok h
    exact object_of_grow (object_of_edit (keepsObjects_putAt _ _) hj hset) h

theorem object_of_outcome {segments : List String} {body r : Json} {p : Patch}
    (hbody : body.IsObject) (h : p.outcome segments body = .ok r) : r.IsObject := by
  cases p with
  | remove path => exact object_of_edit keepsObjects_deleteAt hbody h
  | write how path value =>
    rw [outcome] at h
    obtain ⟨j, hgrow, h⟩ := bind_eq_ok h
    exact object_of_edit (keepsObjects_change _ _) (object_of_grow hbody hgrow) h

/-- Whatever the assignment of a patch makes of an object is an object. -/
theorem object_of_evaluate {segments : List String} (hne : segments ≠ []) {id : Cell} {p : Patch}
    {body r : Json} (hbody : body.IsObject)
    (h : evaluate (p.assignment segments).sql.chars body (p.params id segments) = .ok (some r)) :
    r.IsObject := by
  obtain ⟨q, -, houtcome⟩ := outcome_of_evaluate hne id p h
  exact object_of_outcome hbody houtcome

end Patch

end DocStore
