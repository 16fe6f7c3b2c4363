import DocStore.Proofs.Entries
import DocStore.Proofs.Patch.OwnPath

/-!
# Parents that a patch creates

The parents of a place are created one after the other, each by an edit
that starts at the root. What they add up to is told by the first key
alone: either the first edit leaves a child under it (`Child`), and then
the patch goes on inside that child, or it leaves none (`Dead`), and then
every later edit stops there without a change.

An edit leaves no child in two ways. The body may have a scalar before
the end of the path; nothing is created then. Or the path reaches an
array with an index more than one place outside: the object goes to the
nearer end of the array, where that index does not lead, and so the
parent that was made is left behind without the value (`Overshoots`).

Main statement: `stored_iff_not_overshoots`.
-/

namespace DocStore

namespace Jsonb

/-! ## Below the first key -/

/-- `plug c` has `c` under `key`: paths and edits beyond `key` go on in it. -/
structure Child (key : String) (plug : Json → Json) : Prop where
  get_cons : ∀ (rest : List String) (c : Json), get? (key :: rest) (plug c) = get? rest c
  edit_cons : ∀ change (rest : List String) (c : Json), rest ≠ [] →
    edit change (key :: rest) (plug c) = (edit change rest c).map plug

/-- Nothing in `j` is beyond `key`. -/
structure Dead (key : String) (j : Json) : Prop where
  get_cons : ∀ rest : List String, get? (key :: rest) j = none
  edit_cons : ∀ change (rest : List String), rest ≠ [] → edit change (key :: rest) j = .ok j

theorem get?_cons (key : String) (rest : List String) (j : Json) :
    get? (key :: rest) j = (get? [key] j).bind (get? rest) := by
  cases j with
  | obj members =>
    simp only [get?]
    cases Entries.get? key members <;> rfl
  | arr items =>
    simp only [get?]
    cases (index? key).bind (position? · items.length) with
    | none => rfl
    | some p => simp only [Option.bind_some]; cases items[p]? <;> rfl
  | _ => rfl

theorem get?_empty {rest : List String} (h : rest ≠ []) : get? rest (.obj []) = none := by
  obtain ⟨key, rest, rfl⟩ := List.exists_cons_of_ne_nil h
  rfl

theorem child_obj (key : String) (members : Json.Members) :
    Child key fun c => .obj (Entries.insert key c members) where
  get_cons rest c := by simp [get?]
  edit_cons change rest c hrest := by
    obtain ⟨next, rest, rfl⟩ := List.exists_cons_of_ne_nil hrest
    rw [edit]
    · simp only [Entries.get?_insert_self, Entries.insert_insert]
      cases edit change (next :: rest) c <;> rfl
    · simp

/-! ## Below an index -/

theorem position?_eq_some {i : Int} {length p : Nat} :
    position? i length = some p ↔ p < length ∧ (i = p ∨ i = (p : Int) - length) := by
  unfold position?
  by_cases hi : i < 0
  · simp only [hi, if_true, Option.ite_none_right_eq_some, Option.some.injEq]
    omega
  · simp only [hi, if_false, Option.ite_none_right_eq_some, Option.some.injEq]
    omega

theorem position?_eq_none {i : Int} {length : Nat} :
    position? i length = none ↔ (length : Int) ≤ i ∨ i < -(length : Int) := by
  unfold position?
  by_cases hi : i < 0
  · simp only [hi, if_true, ite_eq_right_iff, reduceCtorEq, imp_false]
    omega
  · simp only [hi, if_false, ite_eq_right_iff, reduceCtorEq, imp_false]
    omega

section Arrays

variable {key : String} {i : Int}

theorem child_arr {p : Nat} {items : Json → List Json} (hi : index? key = some i)
    (hp : ∀ c, position? i (items c).length = some p) (hget : ∀ c, (items c)[p]? = some c)
    (hset : ∀ c d, (items c).set p d = items d) : Child key fun c => .arr (items c) where
  get_cons rest c := by simp [get?, hi, hp, hget]
  edit_cons change rest c hrest := by
    obtain ⟨next, rest, rfl⟩ := List.exists_cons_of_ne_nil hrest
    rw [edit]
    · simp only [index, hi, bind, Except.bind, hp, Option.bind, hget, Option.map_some, hset]
      cases edit change (next :: rest) c <;> rfl
    · simp

theorem child_item {items : List Json} {p : Nat} (hi : index? key = some i)
    (hp : position? i items.length = some p) : Child key fun c => .arr (items.set p c) := by
  have hlt : p < items.length := position?_lt hp
  apply child_arr hi
  · intro c
    rw [List.length_set]
    exact hp
  · intro c
    rw [List.getElem?_set_self hlt]
  · intro c d
    rw [List.set_set]

theorem child_append {items : List Json} (hi : index? key = some (items.length : Int)) :
    Child key fun c => .arr (items ++ [c]) := by
  apply child_arr hi (p := items.length)
  · intro c
    rw [List.length_append, position?_eq_some]
    simp
  · simp
  · simp

theorem child_prepend {items : List Json} (hi : index? key = some (-(items.length : Int) - 1)) :
    Child key fun c => .arr (c :: items) := by
  apply child_arr hi (p := 0)
  · intro c
    rw [List.length_cons, position?_eq_some]
    omega
  · simp
  · simp

theorem dead_arr {items : List Json} (hi : index? key = some i)
    (hp : position? i items.length = none) : Dead key (.arr items) where
  get_cons rest := by simp [get?, hi, hp]
  edit_cons change rest hrest := by
    obtain ⟨next, rest, rfl⟩ := List.exists_cons_of_ne_nil hrest
    rw [edit]
    · simp only [index, hi, bind, Except.bind, hp, Option.bind]
      rfl
    · simp

end Arrays

/-- Neither an object nor an array. -/
def Scalar : Json → Prop
  | .obj _ | .arr _ => False
  | _ => True

theorem dead_scalar {j : Json} (h : Scalar j) (key : String) : Dead key j where
  get_cons rest := by
    cases j with
    | obj | arr => exact h.elim
    | _ => rfl
  edit_cons change rest hrest := by
    obtain ⟨next, rest, rfl⟩ := List.exists_cons_of_ne_nil hrest
    cases j with
    | obj | arr => exact h.elim
    | _ => rfl

end Jsonb

namespace Patch

open Jsonb

/-! ## The patch goes on in the child -/

section Steps

variable {key : String} {body : Json}

theorem grow_child {plug : Json → Json} (hplug : Child key plug) {child : Json}
    (hbody : ∀ rest, rest ≠ [] → get? (key :: rest) body = get? rest child) :
    ∀ {parents : List (List String)} {c : Json}, (∀ p ∈ parents, p ≠ []) →
      grow body (parents.map (key :: ·)) (plug c) = (grow child parents c).map plug
  | [], _, _ => rfl
  | parent :: rest, c, h => by
    rw [List.forall_mem_cons] at h
    rw [List.map_cons, grow, hbody parent h.1, Jsonb.set, hplug.edit_cons _ _ _ h.1, grow,
      Jsonb.set]
    cases edit (putAt true ((get? parent child).getD (.obj []))) parent c with
    | error fault => rfl
    | ok c' => exact grow_child hplug hbody h.2

theorem grow_dead {j : Json} (hj : Dead key j) :
    ∀ {parents : List (List String)}, (∀ p ∈ parents, p ≠ []) →
      grow body (parents.map (key :: ·)) j = .ok j
  | [], _ => rfl
  | parent :: rest, h => by
    rw [List.forall_mem_cons] at h
    rw [List.map_cons, grow, Jsonb.set, hj.edit_cons _ _ h.1]
    exact grow_dead hj h.2

variable {next : String} {rest : List String} {how : PatchWrite} {path : String} {value : Json}

/-- The first edit has left `child` under `key`, as the body had it, if it had
anything there. -/
theorem outcome_child {plug : Json → Json} (hplug : Child key plug) {child : Json}
    (hfirst : putAt true ((get? [key] body).getD (.obj [])) key body = .ok (plug child))
    (hbody : ∀ rest, rest ≠ [] → get? (key :: rest) body = get? rest child) :
    (write how path value).outcome (key :: next :: rest) body =
      ((write how path value).outcome (next :: rest) child).map plug := by
  rw [outcome, outcome, DocPath.parents_cons, grow, Jsonb.set, edit, hfirst, hbody _ (by simp)]
  show (grow body _ (plug child) >>= _) = _
  rw [grow_child hplug hbody DocPath.parents_ne_nil]
  cases grow child (DocPath.parents (next :: rest)) child with
  | error fault => rfl
  | ok c => exact hplug.edit_cons _ _ _ (by simp)

theorem outcome_dead {j : Json} (hj : Dead key j)
    (hfirst : putAt true ((get? [key] body).getD (.obj [])) key body = .ok j) :
    (write how path value).outcome (key :: next :: rest) body = .ok j := by
  rw [outcome, DocPath.parents_cons, grow, Jsonb.set, edit, hfirst]
  show (grow body _ j >>= _) = _
  rw [grow_dead hj DocPath.parents_ne_nil]
  exact hj.edit_cons _ _ (by simp)

end Steps

end Patch

/-! ## Where the value is -/

/-- The position at which an array of `length` items holds what was written
for index `i`: the nearer end, if the index is out of range. An index that
counts from the end means the end before an item was inserted. -/
def PatchWrite.slot (how : PatchWrite) (i : Int) (length : Nat) : Nat :=
  let before : Nat := if how = .insert then length - 1 else length
  min (if i < 0 then before + i else i).toNat (length - 1)

/-- Where the parent of a place holds `new`, once it is written. -/
def PatchWrite.Holds (how : PatchWrite) (new : Json) (key : String) : Json → Prop
  | .obj members => Entries.get? key members = some new
  | .arr items => ∃ i, Jsonb.index? key = some i ∧ items[how.slot i items.length]? = some new
  | _ => False

namespace Patch

open Jsonb

/-- The parent of the place is there and holds `new`. -/
def Stored (how : PatchWrite) (new : Json) (segments : List String) (j : Json) : Prop :=
  ∃ parent key, get? segments.dropLast j = some parent ∧ segments.getLast? = some key ∧
    how.Holds new key parent

/-- Before its end the path leads to an array with an index more than one
place outside. -/
inductive Overshoots : List String → Json → Prop where
  | here {key next : String} {rest : List String} {items : List Json} {i : Int} :
      index? key = some i → (items.length : Int) < i ∨ i < -(items.length : Int) - 1 →
      Overshoots (key :: next :: rest) (.arr items)
  | inside {key : String} {rest : List String} {j child : Json} :
      get? [key] j = some child → Overshoots rest child → Overshoots (key :: rest) j

theorem stored_cons {key next : String} {rest : List String} {plug : Json → Json}
    (hplug : Child key plug) {how : PatchWrite} {new c : Json}
    (h : Stored how new (next :: rest) c) : Stored how new (key :: next :: rest) (plug c) := by
  obtain ⟨parent, last, hget, hlast, hholds⟩ := h
  refine ⟨parent, last, ?_, ?_, hholds⟩
  · rw [List.dropLast_cons_cons, hplug.get_cons, hget]
  · rw [List.getLast?_cons_cons, hlast]

/-! ## The last edit -/

theorem holds_arr {how : PatchWrite} {new : Json} {key : String} {items : List Json} {i : Int}
    {p : Nat} (hi : index? key = some i) (hslot : how.slot i items.length = p)
    (hp : items[p]? = some new) : how.Holds new key (.arr items) :=
  ⟨i, hi, by rw [hslot, hp]⟩

/-- An index out of range has put the value at the nearer end. -/
theorem holds_end {how : PatchWrite} {new r : Json} {key : String} {items : List Json} {i : Int}
    (hi : index? key = some i) (hp : position? i items.length = none)
    (h : (if i < 0 then .ok (.arr (new :: items)) else .ok (.arr (items ++ [new]))) =
      (.ok r : Except ExecutionFault Json)) : how.Holds new key r := by
  rw [position?_eq_none] at hp
  split at h
  · cases h
    refine holds_arr hi (p := 0) ?_ rfl
    rw [List.length_cons]
    unfold PatchWrite.slot
    by_cases hhow : how = .insert
    · simp only [hhow, if_true]
      split <;> omega
    · simp only [hhow, if_false]
      split <;> omega
  · cases h
    refine holds_arr hi (p := items.length) ?_ (by simp)
    rw [List.length_append, List.length_singleton]
    unfold PatchWrite.slot
    dsimp only
    split <;> omega

theorem holds_putAt {how : PatchWrite} (hhow : how ≠ .insert) {new j r : Json} {key : String}
    (h : putAt true new key j = .ok r) : how.Holds new key r ∨ r = j := by
  cases j with
  | obj members =>
    rw [putAt, if_pos (by simp)] at h
    cases h
    exact .inl (Entries.get?_insert_self _ _ _)
  | arr items =>
    unfold putAt index at h
    cases hi : index? key with
    | none => rw [hi] at h; cases h
    | some i =>
      simp only [hi, bind, Except.bind] at h
      left
      split at h
      · rename_i p hp
        cases h
        rw [position?_eq_some] at hp
        refine holds_arr hi (p := p) ?_ (List.getElem?_set_self hp.1)
        rw [List.length_set]
        simp only [PatchWrite.slot, hhow, if_false]
        split <;> omega
      · rename_i hp
        exact holds_end hi hp h
  | _ => cases h; exact .inr rfl

theorem holds_insertAt {new j r : Json} {key : String} (h : insertAt new key j = .ok r) :
    PatchWrite.insert.Holds new key r ∨ r = j := by
  cases j with
  | obj members =>
    rw [insertAt] at h
    split at h
    · cases h
    · cases h
      exact .inl (Entries.get?_insert_self _ _ _)
  | arr items =>
    unfold insertAt index at h
    cases hi : index? key with
    | none => rw [hi] at h; cases h
    | some i =>
      simp only [hi, bind, Except.bind] at h
      left
      split at h
      · rename_i p hp
        cases h
        rw [position?_eq_some] at hp
        refine holds_arr hi (p := p) ?_ (by rw [List.getElem?_insertIdx_self, if_pos (by omega)])
        rw [List.length_insertIdx_of_le_length (by omega)]
        simp only [PatchWrite.slot, if_true]
        split <;> omega
      · rename_i hp
        exact holds_end hi hp h
  | _ => cases h; exact .inr rfl

theorem holds_change {how : PatchWrite} {new j r : Json} {key : String}
    (h : how.change new key j = .ok r) : how.Holds new key r ∨ r = j := by
  cases how with
  | set => exact holds_putAt (by simp) h
  | insert => exact holds_insertAt h
  | push => exact holds_putAt (by simp) h

/-! ## The first edit -/

theorem Overshoots.of_get? {key : String} {rest : List String} {j child : Json}
    (hover : Overshoots (key :: rest) j) (hget : get? [key] j = some child) :
    Overshoots rest child := by
  cases hover with
  | here hi hout =>
    rw [(dead_arr hi (position?_eq_none.mpr (by omega))).get_cons] at hget
    cases hget
  | inside hget' hover =>
    rw [hget] at hget'
    cases hget'
    exact hover

theorem not_overshoots_of_adjacent {key : String} {rest : List String} {items : List Json} {i : Int}
    (hi : index? key = some i) (hnone : get? [key] (.arr items) = none)
    (hadjacent : i = items.length ∨ i = -(items.length : Int) - 1) :
    ¬ Overshoots (key :: rest) (.arr items) := by
  intro hover
  cases hover with
  | here hi' hout =>
    rw [hi] at hi'
    cases hi'
    omega
  | inside hget _ =>
    rw [hnone] at hget
    cases hget

/-- What the first edit makes of the body: it finds a child, makes one, stops
at a scalar, or adds an item where the key does not lead. -/
theorem firstEdit_cases {key : String} {body r : Json} (hbody : body.WellFormed)
    (h : putAt true ((get? [key] body).getD (.obj [])) key body = .ok r) :
    (∃ child plug, Child key plug ∧ get? [key] body = some child ∧ child.WellFormed ∧
      body = plug child ∧ r = plug child) ∨
    (∃ plug, Child key plug ∧ get? [key] body = none ∧ (∀ rest, ¬ Overshoots (key :: rest) body) ∧
      r = plug (.obj [])) ∨
    (Scalar body ∧ r = body) ∨
    ∃ items items' i, body = .arr items ∧ r = .arr items' ∧ index? key = some i ∧
      ((items.length : Int) < i ∨ i < -(items.length : Int) - 1) ∧
      items'.length = items.length + 1 ∧ Dead key r := by
  cases body with
  | obj members =>
    rw [putAt, if_pos (by simp)] at h
    cases h
    rw [Json.wellFormed_obj] at hbody
    cases hchild : Entries.get? key members with
    | some child =>
      have hself := Entries.insert_eq_self hbody.1 hchild
      refine .inl ⟨child, _, child_obj key members, by simp [get?, hchild],
        hbody.2 _ (Entries.mem_of_get? hchild), by rw [hself], ?_⟩
      simp [get?, hchild]
    | none =>
      have hnone : get? [key] (.obj members) = none := by simp [get?, hchild]
      refine .inr (.inl ⟨_, child_obj key members, hnone, fun rest hover => ?_, by rw [hnone]; rfl⟩)
      obtain ⟨-, hover⟩ | ⟨hget, -⟩ := hover
      rw [hnone] at hget
      cases hget
  | arr items =>
    unfold putAt index at h
    cases hi : index? key with
    | none => rw [hi] at h; cases h
    | some i =>
      simp only [hi, bind, Except.bind, Bool.not_true, Bool.false_eq_true, if_false] at h
      cases hp : position? i items.length with
      | some p =>
        have hlt := position?_lt hp
        have hchild : get? [key] (.arr items) = some items[p] := by
          simp [get?, hi, hp, List.getElem?_eq_getElem hlt]
        simp only [hp, hchild, Option.getD_some] at h
        cases h
        rw [Json.wellFormed_arr] at hbody
        refine .inl ⟨items[p], _, child_item hi hp, hchild, hbody _ (List.getElem_mem hlt), ?_, rfl⟩
        simp
      | none =>
        have hnone : get? [key] (.arr items) = none := (dead_arr hi hp).get_cons []
        simp only [hp, hnone, Option.getD_none] at h
        rw [position?_eq_none] at hp
        right
        split at h
        · cases h
          by_cases hadjacent : i = -(items.length : Int) - 1
          · refine .inl ⟨_, child_prepend (hadjacent ▸ hi), hnone, fun rest hover => ?_, rfl⟩
            exact not_overshoots_of_adjacent hi hnone (.inr hadjacent) hover
          · refine .inr (.inr ⟨items, _, i, rfl, rfl, rfl, by omega, rfl, dead_arr hi ?_⟩)
            rw [position?_eq_none, List.length_cons]
            omega
        · cases h
          by_cases hadjacent : i = items.length
          · refine .inl ⟨_, child_append (hadjacent ▸ hi), hnone, fun rest hover => ?_, rfl⟩
            exact not_overshoots_of_adjacent hi hnone (.inl hadjacent) hover
          · refine .inr (.inr ⟨items, _, i, rfl, rfl, rfl, by omega, by simp, dead_arr hi ?_⟩)
            rw [position?_eq_none, List.length_append, List.length_singleton]
            omega
  | _ =>
    cases h
    exact .inr (.inr (.inl ⟨trivial, rfl⟩))

/-! ## The value is stored, or the path overshoots -/

section Main

variable {how : PatchWrite} {path : String} {value : Json}

theorem firstEdit_of_outcome {key next : String} {rest : List String} {body r : Json}
    (h : (write how path value).outcome (key :: next :: rest) body = .ok r) :
    ∃ first, putAt true ((get? [key] body).getD (.obj [])) key body = .ok first := by
  obtain ⟨grown, hgrown, -⟩ := bind_eq_ok h
  rw [DocPath.parents_cons, grow] at hgrown
  obtain ⟨first, hfirst, -⟩ := bind_eq_ok hgrown
  exact ⟨first, hfirst⟩

/-- Inside an object that was just made nothing is in the way. -/
theorem stored_of_empty : ∀ {segments : List String} {r : Json}, segments ≠ [] →
    (write how path value).outcome segments (.obj []) = .ok r →
    Stored how (how.written none value) segments r
  | [key], r, _, h => by
    have hchange : how.change (how.written none value) key (.obj []) = .ok r := h
    rcases holds_change hchange with hholds | rfl
    · exact ⟨r, key, rfl, rfl, hholds⟩
    · cases how <;> cases hchange
  | key :: next :: rest, r, _, h => by
    have hnone : ∀ rest, rest ≠ [] → get? (key :: rest) (.obj []) = get? rest (.obj []) :=
      fun rest hrest => (get?_empty hrest).symm
    rw [outcome_child (child_obj key []) rfl hnone] at h
    · obtain ⟨c, hc, rfl⟩ := map_eq_ok h
      exact stored_cons (child_obj key []) (stored_of_empty (by simp) hc)

/-- A path that does not overshoot leads to the value, or changes nothing. -/
theorem stored_or_eq : ∀ {segments : List String} {body r : Json}, segments ≠ [] →
    body.WellFormed → (write how path value).outcome segments body = .ok r →
    ¬ Overshoots segments body →
    Stored how (how.written (get? segments body) value) segments r ∨ r = body
  | [key], body, r, _, _, h, _ => by
    have hchange : how.change (how.written (get? [key] body) value) key body = .ok r := h
    rcases holds_change hchange with hholds | rfl
    · exact .inl ⟨r, key, rfl, rfl, hholds⟩
    · exact .inr rfl
  | key :: next :: rest, body, r, _, hbody, h, hover => by
    obtain ⟨first, hfirst⟩ := firstEdit_of_outcome h
    rcases firstEdit_cases hbody hfirst with ⟨child, plug, hplug, hget, hchild, rfl, rfl⟩ |
      ⟨plug, hplug, hget, hnot, rfl⟩ | ⟨hscalar, rfl⟩ | ⟨items, items', i, rfl, -, hi, hout, -, -⟩
    · -- the child that was there
      rw [outcome_child hplug hfirst fun rest _ => hplug.get_cons rest child] at h
      obtain ⟨c, hc, rfl⟩ := map_eq_ok h
      rw [hplug.get_cons]
      rcases stored_or_eq (by simp) hchild hc fun ho => hover (.inside hget ho) with hstored | rfl
      · exact .inl (stored_cons hplug hstored)
      · exact .inr rfl
    · -- a new child
      have hbeyond : ∀ rest, get? (key :: rest) body = none := by
        intro rest
        rw [get?_cons, hget]
        rfl
      rw [outcome_child hplug hfirst fun rest hrest =>
        (hbeyond rest).trans (get?_empty hrest).symm] at h
      obtain ⟨c, hc, rfl⟩ := map_eq_ok h
      rw [hbeyond]
      exact .inl (stored_cons hplug (stored_of_empty (by simp) hc))
    · -- a scalar
      rw [outcome_dead (dead_scalar hscalar key) hfirst] at h
      cases h
      exact .inr rfl
    · exact absurd (.here hi hout) hover

/-- Where the path overshoots, the body is changed, and the place has no
parent in the new one. -/
theorem lost_of_overshoots : ∀ {segments : List String} {body r : Json},
    Overshoots segments body → body.WellFormed →
    (write how path value).outcome segments body = .ok r →
    r ≠ body ∧ get? segments.dropLast r = none
  | [], _, _, hover, _, _ => nomatch hover
  | [key], _, _, .inside _ hover, _, _ => nomatch hover
  | key :: next :: rest, body, r, hover, hbody, h => by
    obtain ⟨first, hfirst⟩ := firstEdit_of_outcome h
    rw [List.dropLast_cons_cons]
    rcases firstEdit_cases hbody hfirst with ⟨child, plug, hplug, hget, hchild, rfl, rfl⟩ |
      ⟨plug, hplug, hget, hnot, rfl⟩ | ⟨hscalar, rfl⟩ |
      ⟨items, items', i, rfl, rfl, hi, hout, hlength, hdead⟩
    · -- the child that was there
      rw [outcome_child hplug hfirst fun rest _ => hplug.get_cons rest child] at h
      obtain ⟨c, hc, rfl⟩ := map_eq_ok h
      obtain ⟨hne, hnone⟩ := lost_of_overshoots (hover.of_get? hget) hchild hc
      rw [hplug.get_cons]
      refine ⟨?_, hnone⟩
      intro hsame
      have := hplug.get_cons [] c
      rw [hsame, hplug.get_cons] at this
      exact hne (Option.some.inj this).symm
    · exact absurd hover (hnot _)
    · cases hover with
      | here => exact hscalar.elim
      | inside hget _ =>
        rw [(dead_scalar hscalar key).get_cons] at hget
        cases hget
    · rw [outcome_dead hdead hfirst] at h
      cases h
      refine ⟨?_, hdead.get_cons _⟩
      intro hsame
      cases hsame
      omega

end Main

/-- If the assignment gives a body, the value is stored in it, or nothing has
changed, unless the path overshoots; and then the body has changed
without holding the value. -/
theorem stored_iff_not_overshoots (how : PatchWrite) {path : String} {value body : Json}
    (hpath : "" ∉ DocPath.parts path) (hvalue : Json.read? value.text = some value)
    (hbody : body.WellFormed) (table : Sql) (primaryKey : String) (id : Cell) :
    ∃ text bound,
      (write how path value).statement table primaryKey id =
        .ok (updateSql table primaryKey text, bound) ∧
      ∀ r, evaluate text.chars body bound = .ok (some r) →
        ((r ≠ body →
          Stored how (how.written (get? (DocPath.parts path) body) value) (DocPath.parts path) r) ↔
        ¬ Overshoots (DocPath.parts path) body) := by
  let p : Patch := write how path value
  have hne := DocPath.parts_ne_nil path
  refine ⟨_, _, statement_eq (p := p) hpath table primaryKey id, ?_⟩
  intro r h
  have houtcome : p.outcome (DocPath.parts path) body = .ok r := by
    have hread : p.reread? = some p := by
      apply reread?_eq_self
      rintro v ⟨⟩
      exact hvalue
    obtain ⟨q, hq, houtcome⟩ := outcome_of_evaluate hne id p h
    rw [hread] at hq
    cases hq
    exact houtcome
  constructor
  · intro hstored hover
    obtain ⟨hchanged, hnone⟩ := lost_of_overshoots hover hbody houtcome
    obtain ⟨parent, key, hget, -, -⟩ := hstored hchanged
    rw [hnone] at hget
    cases hget
  · intro hover hchanged
    rcases stored_or_eq hne hbody houtcome hover with hstored | hsame
    · exact hstored
    · exact absurd hsame hchanged

/-- In an array of one item, index one is the place after the last, and the
value goes into the object made there. -/
theorem stored_iff_not_overshoots_adjacent :
    "" ∉ DocPath.parts "a.1.b" ∧ Json.read? (Json.bool true).text = some (.bool true) ∧
    (Json.obj [("a", .arr [.null])]).WellFormed ∧
    ∃ text bound,
      (write .set "a.1.b" (.bool true)).statement [.name "notes"] "id" (.text "x") =
        .ok (updateSql [.name "notes"] "id" text, bound) ∧
      ∀ r, evaluate text.chars (.obj [("a", .arr [.null])]) bound = .ok (some r) →
        ((r ≠ .obj [("a", .arr [.null])] →
          Stored .set (.bool true) ["a", "1", "b"] r) ↔
        ¬ Overshoots ["a", "1", "b"] (.obj [("a", .arr [.null])])) := by
  have hpath : "" ∉ DocPath.parts "a.1.b" := by decide
  have hbody : (Json.obj [("a", .arr [.null])]).WellFormed := by
    simp [Json.WellFormed, Json.AllMembers, Json.AllItems, Entries.Sorted]
  exact ⟨hpath, rfl, hbody, stored_iff_not_overshoots .set hpath rfl hbody [.name "notes"] "id"
    (.text "x")⟩

/-- In an array of one item, index five makes an object at the end, and the
value is not in it. -/
theorem overshooting_set_loses_value :
    "" ∉ DocPath.parts "a.5.b" ∧
    Json.read? (Json.num (.ofInt64 2)).text = some (.num (.ofInt64 2)) ∧
    (Json.obj [("a", .arr [.num (.ofInt64 1)])]).WellFormed ∧
    ∃ text bound r,
      (write .set "a.5.b" (.num (.ofInt64 2))).statement [.name "docs"] "id" (.text "x") =
        .ok (updateSql [.name "docs"] "id" text, bound) ∧
      evaluate text.chars (.obj [("a", .arr [.num (.ofInt64 1)])]) bound = .ok (some r) ∧
      r = .obj [("a", .arr [.num (.ofInt64 1), .obj []])] ∧
      r ≠ .obj [("a", .arr [.num (.ofInt64 1)])] ∧
      ¬ Stored .set (.num (.ofInt64 2)) ["a", "5", "b"] r := by
  let p : Patch := write .set "a.5.b" (.num (.ofInt64 2))
  have hpath : "" ∉ DocPath.parts p.path := by decide
  have hvalue : Json.read? (Json.num (.ofInt64 2)).text = some (.num (.ofInt64 2)) := rfl
  have hbody : (Json.obj [("a", .arr [.num (.ofInt64 1)])]).WellFormed := by
    simp [Json.WellFormed, Json.AllMembers, Json.AllItems, Entries.Sorted]
  have hparts : DocPath.parts p.path = ["a", "5", "b"] := by decide
  refine ⟨hpath, hvalue, hbody, _, _, _, statement_eq (p := p) hpath [.name "docs"] "id"
    (.text "x"), ?_, rfl, by simp, ?_⟩
  · have hread : p.reread? = some p := by
      apply reread?_eq_self
      rintro v ⟨⟩
      exact hvalue
    rw [hparts, evaluate_assignment (by simp) _ hread]
    rfl
  · rintro ⟨parent, key, hget, -, -⟩
    cases hget

end Patch

end DocStore
