import DocStore.Proofs.Text.Split
import DocStore.Sql.Path

/-!
# The keys of a dotted path

A path is joined from texts without a dot in exactly one way, and its
keys are these texts, trimmed (`parts_eq_iff`). The parents of a place
are the beginnings of its keys, other than none and all of them
(`mem_parents_iff`).
-/

namespace DocStore.DocPath

/-! ## Between the dots -/

/-- The dotted path with the given keys. -/
def joined (keys : List String) : String := ".".intercalate keys

theorem splitOn_joined {keys : List String} (hne : keys ≠ [])
    (hdots : ∀ key ∈ keys, '.' ∉ key.toList) : Text.splitOn '.' (joined keys) = keys := by
  have hparts : Chars.splitOn '.' (['.'].intercalate (keys.map String.toList)) =
      keys.map String.toList := by
    apply Chars.splitOn_intercalate (by simpa using hne)
    intro part hpart
    obtain ⟨key, hkey, rfl⟩ := List.mem_map.mp hpart
    exact hdots key hkey
  have hdot : ".".toList = ['.'] := rfl
  rw [Text.splitOn, joined, String.toList_intercalate, hdot, hparts]
  simp

theorem joined_splitOn (path : String) : joined (Text.splitOn '.' path) = path := by
  have hchars : (joined (Text.splitOn '.' path)).toList = _ :=
    Text.toList_intercalate_splitOn '.' '.' path
  have hid : (fun c : Char => if c = '.' then '.' else c) = id := by
    funext c
    exact ite_eq_right_iff.mpr Eq.symm
  rw [hid, List.map_id] at hchars
  exact String.toList_inj.mp hchars

/-! ## Trimmed keys -/

theorem parts_joined {texts : List String} (hne : texts ≠ [])
    (hdots : ∀ text ∈ texts, '.' ∉ text.toList) : parts (joined texts) = texts.map Text.trim := by
  rw [parts, splitOn_joined hne hdots]

theorem parts_eq_iff {path : String} {keys : List String} :
    parts path = keys ↔ ∃ texts, texts ≠ [] ∧ (∀ text ∈ texts, '.' ∉ text.toList) ∧
      joined texts = path ∧ texts.map Text.trim = keys := by
  constructor
  · rintro rfl
    exact ⟨Text.splitOn '.' path, Text.splitOn_ne_nil '.' path,
      fun _ => Text.not_mem_of_mem_splitOn, joined_splitOn path, rfl⟩
  · rintro ⟨texts, hne, hdots, rfl, rfl⟩
    exact parts_joined hne hdots

theorem parts_ne_nil (path : String) : parts path ≠ [] := by
  rw [parts, ne_eq, List.map_eq_nil_iff]
  exact Text.splitOn_ne_nil '.' path

theorem dot_not_mem_of_mem_parts {path key : String} (h : key ∈ parts path) :
    '.' ∉ key.toList := by
  obtain ⟨part, hpart, rfl⟩ := List.mem_map.mp h
  exact Text.not_mem_trim_of_mem_splitOn hpart

/-! ## Parents -/

theorem mem_parents_iff {parent segments : List String} :
    parent ∈ parents segments ↔ parent <+: segments ∧ parent ≠ [] ∧ parent ≠ segments := by
  rw [parents, List.mem_map]
  constructor
  · rintro ⟨n, hn, rfl⟩
    have hlt : n + 1 < segments.length := by
      have := List.mem_range.mp hn
      omega
    refine ⟨List.take_prefix _ _, ?_, ?_⟩
    · rw [ne_eq, List.take_eq_nil_iff, not_or]
      exact ⟨Nat.succ_ne_zero n, List.ne_nil_of_length_pos (by omega)⟩
    · intro heq
      have hlength := congrArg List.length heq
      rw [List.length_take] at hlength
      omega
  · rintro ⟨hbeginning, hne, hproper⟩
    have hpos := List.length_pos_iff.mpr hne
    have hlt : parent.length < segments.length :=
      Nat.lt_of_le_of_ne hbeginning.length_le fun h => hproper (hbeginning.eq_of_length h)
    refine ⟨parent.length - 1, List.mem_range.mpr (by omega), ?_⟩
    rw [Nat.sub_add_cancel hpos]
    exact (List.prefix_iff_eq_take.mp hbeginning).symm

theorem parents_ne_nil {segments : List String} : ∀ parent ∈ parents segments, parent ≠ [] :=
  fun _ h => (mem_parents_iff.mp h).2.1

theorem parents_cons (key next : String) (rest : List String) :
    parents (key :: next :: rest) = [key] :: (parents (next :: rest)).map (key :: ·) := by
  simp [parents, List.range_succ_eq_map]

end DocStore.DocPath
