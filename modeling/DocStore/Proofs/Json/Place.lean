import DocStore.Jsonb.Path
import DocStore.Proofs.Entries

/-!
# Positions inside a JSON value

A position is named in one way only: by the steps that lead to it, each
to a member of an object or to an item of an array, counted from the
front. So two positions are apart if neither list of steps begins with
the other, which is not so of the keys of a path: an item has several.

`update` puts a value at a position, given the one that was there. Where
nothing is there yet it goes on from nothing (`none`), and every step
from nothing makes an object with a single member.

Main statements: every position apart from the one that is changed keeps
its value (`at?_update_of_apart`); to put back what was at a position
changes nothing (`update_self`).
-/

namespace DocStore

namespace Json

/-! ## One step -/

inductive Step where
  | member (key : String)
  | item (position : Nat)
deriving Repr, DecidableEq

/-- The value one step further. -/
def child? : Step → Json → Option Json
  | .member key, .obj members => Entries.get? key members
  | .item p, .arr items => items[p]?
  | _, _ => none

/-- The value with `new` one step further; from nothing, an object with one
member is made. -/
def put (new : Json) : Step → Option Json → Json
  | .member key, some (.obj members) => .obj (Entries.insert key new members)
  | .member key, none => .obj [(key, new)]
  | .item p, some (.arr items) => .arr (items.set p new)
  | _, old => old.getD .null

theorem child?_null (step : Step) : child? step .null = none := by
  cases step <;> rfl

theorem child?_put_of_ne {step other : Step} (h : step ≠ other) (new : Json) (old : Option Json) :
    (put new step old).child? other = old.bind (child? other) := by
  unfold put
  split
  · rename_i key members
    cases other with
    | member otherKey =>
      have hne : key ≠ otherKey := fun heq => h (by rw [heq])
      exact Entries.get?_insert_of_ne hne
    | item p => rfl
  · rename_i key
    cases other with
    | member otherKey =>
      have hne : key ≠ otherKey := fun heq => h (by rw [heq])
      simp [child?, Entries.get?, hne]
    | item p => rfl
  · rename_i p items
    cases other with
    | member key => rfl
    | item q =>
      have hne : p ≠ q := fun heq => h (by rw [heq])
      exact List.getElem?_set_ne hne
  · cases old with
    | none => exact child?_null other
    | some j => rfl

/-- The new value is found again, unless there is no such place. -/
theorem child?_put (new : Json) (step : Step) (old : Option Json) :
    (put new step old).child? step = some new ∨
      (put new step old).child? step = none ∧ old.bind (child? step) = none := by
  unfold put
  split
  · exact .inl (Entries.get?_insert_self ..)
  · exact .inl (by simp [child?, Entries.get?])
  · rename_i p items
    by_cases hp : p < items.length
    · exact .inl (List.getElem?_set_self hp)
    · have hout : items.length ≤ p := Nat.le_of_not_lt hp
      refine .inr ⟨?_, List.getElem?_eq_none hout⟩
      exact List.getElem?_eq_none (by rw [List.length_set]; exact hout)
  · rename_i hobj hnone harr
    right
    cases old with
    | none => exact ⟨child?_null step, rfl⟩
    | some j =>
      have hchild : child? step j = none := by
        unfold child?
        split
        · exact (hobj _ _ rfl rfl).elim
        · exact (harr _ _ rfl rfl).elim
        · rfl
      exact ⟨hchild, hchild⟩

/-- Of two values put at the same place the later one counts. -/
theorem put_put (first second : Json) (step : Step) (old : Option Json) :
    put second step (some (put first step old)) = put second step old := by
  cases step with
  | member key =>
    cases old with
    | none => simp [put, Entries.insert]
    | some j =>
      cases j with
      | obj members => simp only [put, Entries.insert_insert]
      | _ => rfl
  | item p =>
    cases old with
    | none => rfl
    | some j =>
      cases j with
      | arr items => simp only [put, List.set_set]
      | _ => rfl

theorem put_self {j child : Json} {step : Step} (hj : j.WellFormed)
    (h : j.child? step = some child) : put child step (some j) = j := by
  cases step with
  | member key =>
    cases j with
    | obj members =>
      rw [wellFormed_obj] at hj
      rw [put, Entries.insert_eq_self hj.1 h]
    | _ => cases h
  | item p =>
    cases j with
    | arr items =>
      obtain ⟨hp, hget⟩ := List.getElem?_eq_some_iff.mp h
      rw [put, ← hget, List.set_getElem_self]
    | _ => cases h

theorem WellFormed.child? {j child : Json} {step : Step} (hj : j.WellFormed)
    (h : j.child? step = some child) : child.WellFormed := by
  cases step with
  | member key =>
    cases j with
    | obj members =>
      rw [wellFormed_obj] at hj
      exact hj.2 _ (Entries.mem_of_get? h)
    | _ => cases h
  | item p =>
    cases j with
    | arr items =>
      rw [wellFormed_arr] at hj
      exact hj _ (List.mem_of_getElem? h)
    | _ => cases h

/-! ## Many steps -/

/-- The value at a position. -/
def at? : List Step → Json → Option Json
  | [], j => some j
  | step :: rest, j => (j.child? step).bind (at? rest)

theorem at?_singleton (step : Step) (j : Json) : j.at? [step] = j.child? step := by
  rw [at?]
  cases j.child? step <;> rfl

/-- The value with `f` of what is at a position, or of nothing, in its place. -/
def update (f : Option Json → Json) : List Step → Option Json → Json
  | [], old => f old
  | step :: rest, old => put (update f rest (old.bind (child? step))) step old

theorem at?_append (steps more : List Step) (j : Json) :
    j.at? (steps ++ more) = (j.at? steps).bind (at? more) := by
  induction steps generalizing j with
  | nil => rfl
  | cons step steps inside =>
    rw [List.cons_append, at?, at?]
    cases j.child? step with
    | none => rfl
    | some child => exact inside child

theorem update_append (f : Option Json → Json) (steps more : List Step) (old : Option Json) :
    update f (steps ++ more) old = update (update f more) steps old := by
  induction steps generalizing old with
  | nil => rfl
  | cons step steps inside => rw [List.cons_append, update, update, inside]

theorem at?_update_of_some {f : Option Json → Json} {steps : List Step} {j inner : Json}
    (h : j.at? steps = some inner) :
    (update f steps (some j)).at? steps = some (f (some inner)) := by
  induction steps generalizing j with
  | nil =>
    cases h
    rfl
  | cons step steps inside =>
    obtain ⟨child, hchild, hinner⟩ := Option.bind_eq_some_iff.mp h
    rw [update, Option.bind_some, hchild, at?]
    rcases child?_put (update f steps (some child)) step (some j) with hput | ⟨-, hnone⟩
    · rw [hput, Option.bind_some, inside hinner]
    · rw [Option.bind_some, hchild] at hnone
      cases hnone

/-- Only what is made of the value at the position counts. -/
theorem update_congr {f g : Option Json → Json} {steps : List Step} {old : Option Json}
    (h : f (old.bind (at? steps)) = g (old.bind (at? steps))) :
    update f steps old = update g steps old := by
  induction steps generalizing old with
  | nil =>
    cases old with
    | none => exact h
    | some j => exact h
  | cons step steps inside =>
    have hbind : old.bind (at? (step :: steps)) = (old.bind (child? step)).bind (at? steps) := by
      cases old <;> rfl
    rw [hbind] at h
    rw [update, update, inside h]

theorem WellFormed.at? {steps : List Step} {j inner : Json} (hj : j.WellFormed)
    (h : j.at? steps = some inner) : inner.WellFormed := by
  induction steps generalizing j with
  | nil =>
    cases h
    exact hj
  | cons step steps inside =>
    obtain ⟨child, hchild, hinner⟩ := Option.bind_eq_some_iff.mp h
    exact inside (hj.child? hchild) hinner

theorem update_self {steps : List Step} {j inner : Json} (hj : j.WellFormed)
    (h : j.at? steps = some inner) : update (fun _ => inner) steps (some j) = j := by
  induction steps generalizing j with
  | nil =>
    cases h
    rfl
  | cons step steps inside =>
    obtain ⟨child, hchild, hinner⟩ := Option.bind_eq_some_iff.mp h
    rw [update, Option.bind_some, hchild, inside (hj.child? hchild) hinner, put_self hj hchild]

/-- Neither position is inside the other, nor are they the same. -/
def Apart (steps other : List Step) : Prop := ¬ steps <+: other ∧ ¬ other <+: steps

theorem Apart.of_cons {step : Step} {steps other : List Step}
    (h : Apart (step :: steps) (step :: other)) : Apart steps other :=
  ⟨fun hpre => h.1 (List.cons_prefix_cons.mpr ⟨rfl, hpre⟩),
    fun hpre => h.2 (List.cons_prefix_cons.mpr ⟨rfl, hpre⟩)⟩

theorem at?_update_of_apart {f : Option Json → Json} : ∀ {steps other : List Step},
    Apart steps other → ∀ old : Option Json,
      (update f steps old).at? other = old.bind (at? other)
  | [], _, h, _ => absurd List.nil_prefix h.1
  | _ :: _, [], h, _ => absurd List.nil_prefix h.2
  | step :: rest, otherStep :: other, h, old => by
    have hold : old.bind (at? (otherStep :: other)) =
        (old.bind (child? otherStep)).bind (at? other) := by
      cases old <;> rfl
    rw [hold, update, at?]
    by_cases hstep : step = otherStep
    · subst hstep
      have inside := at?_update_of_apart (f := f) h.of_cons (old.bind (child? step))
      rcases child?_put (update f rest (old.bind (child? step))) step old with hput | ⟨hput, hnone⟩
      · rw [hput, ← inside]
        rfl
      · rw [hput, hnone]
    · rw [child?_put_of_ne hstep]

end Json

end DocStore
