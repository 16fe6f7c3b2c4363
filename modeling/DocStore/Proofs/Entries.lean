import DocStore.Ordered
import Mathlib.Algebra.GroupWithZero.Nat

/-!
# Writing twice

The later of two values for one key counts, and to write what is there
already changes nothing. Entries in order are known by what is found in
them, so changes under different keys can be made in either order. A
value that is put under a new key adds to the entries, one that replaces
another takes its place.

Main statements: `eq_of_get?`, `alter_comm`, `sum_insert`.
-/

namespace DocStore.Entries

variable {κ ν : Type} [KeyOrder κ] [DecidableEq κ]

theorem insert_insert (k : κ) (v w : ν) (m : Entries κ ν) :
    (m.insert k v).insert k w = m.insert k w := by
  induction m with
  | nil => simp [insert]
  | cons e m ih =>
    obtain ⟨k₀, v₀⟩ := e
    by_cases h₀ : k₀ = k
    · simp [insert, h₀]
    · by_cases hb : before k k₀ = true
      · simp [insert, h₀, hb]
      · simp [insert, h₀, hb, ih]

theorem insert_eq_self {k : κ} {v : ν} {m : Entries κ ν} (hm : m.Sorted)
    (h : m.get? k = some v) : m.insert k v = m := by
  induction m with
  | nil => simp at h
  | cons e m ih =>
    obtain ⟨k₀, v₀⟩ := e
    rw [Sorted, List.pairwise_cons] at hm
    unfold get? at h
    split at h
    · rename_i h₀
      cases h
      rw [insert, if_pos h₀, h₀]
    · rename_i h₀
      -- a later key cannot come before the first one
      have hlater : before k₀ k = true := hm.1 _ (mem_of_get? h)
      have hb : ¬ before k k₀ = true := by
        intro hb
        have := KeyOrder.before_trans hb hlater
        rw [KeyOrder.before_irrefl] at this
        cases this
      rw [insert, if_neg h₀, if_neg hb, ih hm.2 h]

theorem erase_insert (k : κ) (v : ν) (m : Entries κ ν) : (m.insert k v).erase k = m.erase k := by
  induction m with
  | nil => simp [insert, erase]
  | cons e m ih =>
    obtain ⟨k₀, v₀⟩ := e
    rw [erase, erase] at ih
    by_cases h₀ : k₀ = k
    · simp [insert, erase, h₀]
    · by_cases hb : before k k₀ = true
      · simp [insert, erase, h₀, hb]
      · simp [insert, erase, h₀, hb, ih]

/-! ## Entries known by their look-ups -/

/-- Later keys are other keys. -/
theorem get?_tail_of_sorted {k : κ} {v : ν} {m : Entries κ ν} (h : Sorted ((k, v) :: m)) :
    m.get? k = none := by
  rw [Sorted, List.pairwise_cons] at h
  cases hget : m.get? k with
  | none => rfl
  | some w =>
    have hself : before k k = true := h.1 _ (mem_of_get? hget)
    rw [KeyOrder.before_irrefl] at hself
    cases hself

/-- The first key of entries in order is found in others in order, and is
their first key or stands after it. -/
theorem before_of_get?_head {k l : κ} {v w : ν} {n : Entries κ ν} (hne : l ≠ k)
    (hn : Sorted ((l, w) :: n)) (hget : Entries.get? k ((l, w) :: n) = some v) :
    before l k = true := by
  rw [Sorted, List.pairwise_cons] at hn
  rw [Entries.get?, if_neg hne] at hget
  exact hn.1 _ (mem_of_get? hget)

theorem mem_iff_get? {m : Entries κ ν} (h : m.Sorted) {k : κ} {v : ν} :
    (k, v) ∈ m ↔ m.get? k = some v := by
  refine ⟨fun hmem => ?_, mem_of_get?⟩
  induction m with
  | nil => cases hmem
  | cons e m ih =>
    obtain ⟨k₀, v₀⟩ := e
    rcases List.mem_cons.mp hmem with heq | hmem
    · cases heq
      rw [get?, if_pos rfl]
    · have hne : k₀ ≠ k := by
        rintro rfl
        have hself := (List.pairwise_cons.mp h).1 _ hmem
        rw [KeyOrder.before_irrefl] at hself
        cases hself
      rw [get?, if_neg hne, ih (List.Pairwise.of_cons h) hmem]

theorem eq_of_get? {m n : Entries κ ν} (hm : m.Sorted) (hn : n.Sorted)
    (h : ∀ k, m.get? k = n.get? k) : m = n := by
  induction m generalizing n with
  | nil =>
    cases n with
    | nil => rfl
    | cons e n =>
      have := h e.1
      simp [Entries.get?] at this
  | cons e m ih =>
    obtain ⟨k, v⟩ := e
    cases n with
    | nil =>
      have := h k
      simp [Entries.get?] at this
    | cons e n =>
      obtain ⟨l, w⟩ := e
      have hk : Entries.get? k ((l, w) :: n) = some v := by rw [← h k, Entries.get?, if_pos rfl]
      have hl : Entries.get? l ((k, v) :: m) = some w := by rw [h l, Entries.get?, if_pos rfl]
      have hkl : l = k := by
        refine Decidable.byContradiction fun hne => ?_
        have hcycle := KeyOrder.before_trans (before_of_get?_head hne hn hk)
          (before_of_get?_head (Ne.symm hne) hm hl)
        rw [KeyOrder.before_irrefl] at hcycle
        cases hcycle
      subst hkl
      have hvalue : w = v := by simpa [Entries.get?] using hk
      have htails : m = n := by
        apply ih (List.Pairwise.of_cons hm) (List.Pairwise.of_cons hn)
        intro k
        by_cases hk : l = k
        · rw [← hk, get?_tail_of_sorted hm, get?_tail_of_sorted hn]
        · have := h k
          rwa [Entries.get?, Entries.get?, if_neg hk, if_neg hk] at this
      rw [hvalue, htails]

/-! ## Changing one entry -/

/-- Puts a value under `k`, or removes what is there. -/
def alter (k : κ) (value : Option ν) (m : Entries κ ν) : Entries κ ν :=
  match value with
  | some v => m.insert k v
  | none => m.erase k

theorem get?_alter (m : Entries κ ν) (k k' : κ) (value : Option ν) :
    (m.alter k value).get? k' = if k = k' then value else m.get? k' := by
  cases value with
  | some v => exact get?_insert m k k' v
  | none => exact get?_erase m k k'

theorem Sorted.alter {m : Entries κ ν} (h : m.Sorted) (k : κ) (value : Option ν) :
    (m.alter k value).Sorted := by
  cases value with
  | some v => exact h.insert k v
  | none => exact h.erase k

theorem alter_alter {m : Entries κ ν} (h : m.Sorted) (k : κ) (first second : Option ν) :
    (m.alter k first).alter k second = m.alter k second := by
  apply eq_of_get? ((h.alter k first).alter k second) (h.alter k second)
  intro k'
  rw [get?_alter, get?_alter, get?_alter]
  by_cases hk : k = k' <;> simp [hk]

theorem alter_comm {m : Entries κ ν} (h : m.Sorted) {k l : κ} (hne : k ≠ l)
    (first second : Option ν) :
    (m.alter k first).alter l second = (m.alter l second).alter k first := by
  apply eq_of_get? ((h.alter k first).alter l second) ((h.alter l second).alter k first)
  intro k'
  rw [get?_alter, get?_alter, get?_alter, get?_alter]
  by_cases hl : l = k'
  · rw [if_pos hl, if_neg (hl ▸ hne), if_pos hl]
  · rw [if_neg hl, if_neg hl]

theorem alter_get? {m : Entries κ ν} (h : m.Sorted) (k : κ) : m.alter k (m.get? k) = m := by
  apply eq_of_get? (h.alter k _) h
  intro k'
  rw [get?_alter]
  by_cases hk : k = k'
  · rw [if_pos hk, hk]
  · rw [if_neg hk]

/-! ## Counting -/

theorem insert_ne_nil (k : κ) (v : ν) (m : Entries κ ν) : m.insert k v ≠ [] := by
  cases m with
  | nil => simp [insert]
  | cons e m =>
    unfold insert
    split
    · simp
    · split <;> simp

theorem get?_eq_none_of_before {k l : κ} {w : ν} {m : Entries κ ν} (h : Sorted ((l, w) :: m))
    (hb : before k l = true) : Entries.get? k ((l, w) :: m) = none := by
  rw [Option.eq_none_iff_forall_ne_some]
  intro v hget
  have hself : before k k = true := by
    rcases List.mem_cons.mp (mem_of_get? hget) with heq | hmem
    · cases heq
      exact hb
    · exact KeyOrder.before_trans hb ((List.pairwise_cons.mp h).1 _ hmem)
  rw [KeyOrder.before_irrefl] at hself
  cases hself

/-- Sizes of values, added up: what is replaced no longer counts. -/
theorem sum_insert (size : ν → Nat) {m : Entries κ ν} (h : m.Sorted) (k : κ) (v : ν) :
    ((m.insert k v).map fun e => size e.2).sum + ((m.get? k).map size).getD 0 =
      (m.map fun e => size e.2).sum + size v := by
  induction m with
  | nil => simp [insert]
  | cons e m ih =>
    obtain ⟨k₀, v₀⟩ := e
    by_cases h₀ : k₀ = k
    · simp only [insert, get?, if_pos h₀, List.map_cons, List.sum_cons, Option.map_some,
        Option.getD_some]
      omega
    · by_cases hb : before k k₀ = true
      · rw [get?_eq_none_of_before h hb, insert, if_neg h₀, if_pos hb]
        simp only [List.map_cons, List.sum_cons, Option.map_none, Option.getD_none]
        omega
      · have htail := ih (List.Pairwise.of_cons h)
        simp only [insert, get?, if_neg h₀, if_neg hb, List.map_cons, List.sum_cons]
        omega

theorem length_insert {m : Entries κ ν} (h : m.Sorted) (k : κ) (v : ν) :
    (m.insert k v).length + (m.get? k).toList.length = m.length + 1 := by
  have hsum := sum_insert (fun _ => 1) h k v
  cases hget : m.get? k <;> rw [hget] at hsum <;> simpa [List.map_const'] using hsum

end DocStore.Entries
