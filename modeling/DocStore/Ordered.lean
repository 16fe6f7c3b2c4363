/-!
# Entries in key order

A finite map as a list of pairs with increasing keys. The members of a
JSON object, the entities of a schema and the rows of a stored table are
all kept this way, so two maps with the same content are the same list
and every listing comes out in key order.

`insert` replaces in place or puts the pair where its key belongs,
`erase` removes, `get?` finds. What they say about `get?` holds of every
list; that the result is again in order (`Sorted`) needs the input to be.
-/

namespace DocStore

/-! ## Orders on keys -/

/-- A strict total order given as a test. -/
class KeyOrder (κ : Type) where
  before : κ → κ → Bool
  before_irrefl : ∀ a, before a a = false
  before_trans : ∀ {a b c}, before a b = true → before b c = true → before a c = true
  eq_of_not_before : ∀ {a b}, before a b = false → before b a = false → a = b

export KeyOrder (before)

/-- Strings by code point. -/
instance : KeyOrder String where
  before a b := decide (a < b)
  before_irrefl a := decide_eq_false (String.lt_irrefl a)
  before_trans hab hbc :=
    decide_eq_true (String.lt_trans (of_decide_eq_true hab) (of_decide_eq_true hbc))
  eq_of_not_before hab hba :=
    String.le_antisymm (String.not_lt.mp (of_decide_eq_false hba))
      (String.not_lt.mp (of_decide_eq_false hab))

/-! ## Operations -/

/-- A map as a list of pairs, meant to be in key order. -/
abbrev Entries (κ ν : Type) := List (κ × ν)

namespace Entries

variable {κ ν : Type}

section Lookup

variable [DecidableEq κ]

def get? (k : κ) : Entries κ ν → Option ν
  | [] => none
  | (k', v) :: rest => if k' = k then some v else get? k rest

def erase (k : κ) (m : Entries κ ν) : Entries κ ν := m.filter fun e => !decide (e.1 = k)

def contains (k : κ) (m : Entries κ ν) : Bool := (m.get? k).isSome

@[simp] theorem get?_nil (k : κ) : get? k ([] : Entries κ ν) = none := rfl

theorem get?_erase (m : Entries κ ν) (k k' : κ) :
    (m.erase k).get? k' = if k = k' then none else m.get? k' := by
  induction m with
  | nil => simp [erase]
  | cons e m ih =>
    obtain ⟨k₀, v₀⟩ := e
    rw [erase] at ih ⊢
    by_cases h₀ : k₀ = k
    · subst h₀
      by_cases h : k₀ = k' <;> simp_all [get?]
    · by_cases h : k₀ = k'
      · subst h
        simp [h₀, get?, Ne.symm h₀]
      · simp [h₀, get?, h, ih]

theorem mem_of_get? {m : Entries κ ν} {k : κ} {v : ν} (h : m.get? k = some v) : (k, v) ∈ m := by
  induction m with
  | nil => simp at h
  | cons e m ih =>
    obtain ⟨k₀, v₀⟩ := e
    unfold get? at h
    split at h
    · simp_all
    · exact List.mem_cons_of_mem _ (ih h)

end Lookup

section Order

variable [KeyOrder κ]

def Sorted (m : Entries κ ν) : Prop := m.Pairwise fun a b => before a.1 b.1 = true

theorem before_of_not {a b : κ} (hne : a ≠ b) (h : ¬ before a b = true) : before b a = true := by
  by_cases hb : before b a = true
  · exact hb
  · exact absurd (KeyOrder.eq_of_not_before (by simpa using h) (by simpa using hb)) hne

end Order

section Insertion

variable [KeyOrder κ] [DecidableEq κ]

/-- Puts `v` under `k`, in place of what was there. -/
def insert (k : κ) (v : ν) : Entries κ ν → Entries κ ν
  | [] => [(k, v)]
  | (k', v') :: rest =>
    if k' = k then (k, v) :: rest
    else if before k k' then (k, v) :: (k', v') :: rest
    else (k', v') :: insert k v rest

/-- Adds the pairs of a list, in any order, to `m`; of two values for one
key the later counts, and all count before those of `m`. -/
def extend (m : Entries κ ν) (pairs : List (κ × ν)) : Entries κ ν :=
  pairs.foldl (fun m e => m.insert e.1 e.2) m

theorem get?_insert (m : Entries κ ν) (k k' : κ) (v : ν) :
    (m.insert k v).get? k' = if k = k' then some v else m.get? k' := by
  induction m with
  | nil => simp [insert, get?]
  | cons e m ih =>
    obtain ⟨k₀, v₀⟩ := e
    by_cases h₀ : k₀ = k
    · subst h₀
      by_cases h : k₀ = k' <;> simp [insert, get?, h]
    · by_cases hb : before k k₀ = true
      · simp [insert, get?, h₀, hb]
      · rw [insert, if_neg h₀, if_neg hb]
        by_cases h : k₀ = k'
        · subst h
          simp [get?, Ne.symm h₀]
        · simp [get?, h, ih]

@[simp] theorem get?_insert_self (m : Entries κ ν) (k : κ) (v : ν) :
    (m.insert k v).get? k = some v := by
  simp [get?_insert]

theorem get?_insert_of_ne {m : Entries κ ν} {k k' : κ} {v : ν} (h : k ≠ k') :
    (m.insert k v).get? k' = m.get? k' := by
  simp [get?_insert, h]

theorem forall_keys_insert {p : κ → Prop} {m : Entries κ ν} {k : κ} {v : ν} (hk : p k)
    (hm : ∀ e ∈ m, p e.1) : ∀ e ∈ m.insert k v, p e.1 := by
  induction m with
  | nil => simpa [insert] using hk
  | cons e m ih =>
    rw [List.forall_mem_cons] at hm
    unfold insert
    split
    · exact List.forall_mem_cons.mpr ⟨hk, hm.2⟩
    · split
      · exact List.forall_mem_cons.mpr ⟨hk, List.forall_mem_cons.mpr hm⟩
      · exact List.forall_mem_cons.mpr ⟨hm.1, ih hm.2⟩

/-! ## Order is kept -/

theorem Sorted.insert {m : Entries κ ν} (h : m.Sorted) (k : κ) (v : ν) : (m.insert k v).Sorted := by
  induction m with
  | nil => simp [Entries.insert, Sorted]
  | cons e m ih =>
    obtain ⟨k₀, v₀⟩ := e
    rw [Sorted, List.pairwise_cons] at h
    by_cases h₀ : k₀ = k
    · subst h₀
      simpa [Entries.insert, Sorted] using h
    · by_cases hb : before k k₀ = true
      · rw [Entries.insert, if_neg h₀, if_pos hb]
        refine List.pairwise_cons.mpr ⟨?_, List.pairwise_cons.mpr h⟩
        exact List.forall_mem_cons.mpr ⟨hb, fun e he => KeyOrder.before_trans hb (h.1 e he)⟩
      · rw [Entries.insert, if_neg h₀, if_neg hb]
        exact List.pairwise_cons.mpr
          ⟨forall_keys_insert (p := fun k2 => before k₀ k2 = true)
            (before_of_not (Ne.symm h₀) hb) h.1, ih h.2⟩

theorem Sorted.erase {m : Entries κ ν} (h : m.Sorted) (k : κ) : (m.erase k).Sorted :=
  List.Pairwise.filter _ h

theorem Sorted.extend {m : Entries κ ν} (h : m.Sorted) (pairs : List (κ × ν)) :
    (m.extend pairs).Sorted :=
  List.foldlRecOn pairs _ h fun _ hm e _ => hm.insert e.1 e.2

end Insertion

end Entries

end DocStore
