/-!
# Cutting text

Four ways of taking text apart: at every occurrence of one character
(`splitOn`), after a fixed beginning (`strip?`), and at the first or the
last occurrence of a separator (`cut?`, `cutLast?`). Each comes with the
equation that puts the parts together again.
-/

namespace DocStore.Chars

/-! ## At every occurrence of a character -/

/-- The parts of `s` between occurrences of `sep`: one part more than
there are occurrences. -/
def splitOn (sep : Char) : List Char → List (List Char)
  | [] => [[]]
  | c :: s =>
    if c = sep then [] :: splitOn sep s
    else match splitOn sep s with
      | [] => [[c]]
      | p :: ps => (c :: p) :: ps

theorem splitOn_ne_nil (sep : Char) (s : List Char) : splitOn sep s ≠ [] := by
  cases s with
  | nil => simp [splitOn]
  | cons c s =>
    unfold splitOn
    split
    · simp
    · split <;> simp

theorem splitOn_cons_sep (sep : Char) (s : List Char) :
    splitOn sep (sep :: s) = [] :: splitOn sep s := by
  simp [splitOn]

theorem splitOn_of_not_mem {sep : Char} {s : List Char} (h : sep ∉ s) :
    splitOn sep s = [s] := by
  induction s with
  | nil => rfl
  | cons c s ih =>
    rw [List.mem_cons, not_or] at h
    simp [splitOn, Ne.symm h.1, ih h.2]

theorem not_mem_of_mem_splitOn {sep : Char} {s p : List Char} (h : p ∈ splitOn sep s) :
    sep ∉ p := by
  induction s generalizing p with
  | nil => simp_all [splitOn]
  | cons c s ih =>
    unfold splitOn at h
    split at h
    · rcases List.mem_cons.mp h with rfl | h
      · simp
      · exact ih h
    · rename_i hc
      split at h
      · rename_i hnil
        exact absurd hnil (splitOn_ne_nil sep s)
      · rename_i q qs heq
        rcases List.mem_cons.mp h with rfl | h
        · have := ih (p := q) (by simp [heq])
          simp [this, Ne.symm hc]
        · exact ih (by simp [heq, h])

/-! ## After a fixed beginning -/

/-- What follows `pre` in `s`, if `s` begins with it. -/
def strip? : List Char → List Char → Option (List Char)
  | [], s => some s
  | _ :: _, [] => none
  | p :: pre, c :: s => if p = c then strip? pre s else none

@[simp] theorem strip?_append (pre s : List Char) : strip? pre (pre ++ s) = some s := by
  induction pre with
  | nil => rfl
  | cons p pre ih => simp [strip?, ih]

theorem eq_append_of_strip? {pre s r : List Char} (h : strip? pre s = some r) :
    s = pre ++ r := by
  induction pre generalizing s with
  | nil => simpa [strip?] using h
  | cons p pre ih =>
    cases s with
    | nil => simp [strip?] at h
    | cons c s =>
      unfold strip? at h
      split at h
      · rename_i hc
        rw [hc, ih h, List.cons_append]
      · simp at h

/-- What comes before `post` in `s`, if `s` ends with it. -/
def stripEnd? (post s : List Char) : Option (List Char) :=
  (strip? post.reverse s.reverse).map List.reverse

@[simp] theorem stripEnd?_append (s post : List Char) : stripEnd? post (s ++ post) = some s := by
  simp [stripEnd?]

/-! ## At the first or last occurrence of a separator -/

/-- The text before and after the first occurrence of `sep`. -/
def cut? (sep : List Char) : List Char → Option (List Char × List Char)
  | [] => (strip? sep []).map ([], ·)
  | c :: s =>
    match strip? sep (c :: s) with
    | some rest => some ([], rest)
    | none => (cut? sep s).map fun (before, rest) => (c :: before, rest)

/-- The text before and after the last occurrence of `sep`. -/
def cutLast? (sep : List Char) : List Char → Option (List Char × List Char)
  | [] => (strip? sep []).map ([], ·)
  | c :: s =>
    match cutLast? sep s with
    | some (before, rest) => some (c :: before, rest)
    | none => (strip? sep (c :: s)).map ([], ·)

theorem eq_append_of_cut? {sep s a b : List Char} (h : cut? sep s = some (a, b)) :
    s = a ++ sep ++ b := by
  induction s generalizing a with
  | nil =>
    simp only [cut?, Option.map_eq_some_iff, Prod.mk.injEq] at h
    obtain ⟨_, h, rfl, rfl⟩ := h
    simpa using eq_append_of_strip? h
  | cons c s ih =>
    unfold cut? at h
    split at h
    · rename_i hs
      simp only [Option.some.injEq, Prod.mk.injEq] at h
      obtain ⟨rfl, rfl⟩ := h
      simpa using eq_append_of_strip? hs
    · simp only [Option.map_eq_some_iff, Prod.mk.injEq, Prod.exists] at h
      obtain ⟨a', _, h, rfl, rfl⟩ := h
      rw [ih h]
      simp

theorem eq_append_of_cutLast? {sep s a b : List Char} (h : cutLast? sep s = some (a, b)) :
    s = a ++ sep ++ b := by
  induction s generalizing a with
  | nil =>
    simp only [cutLast?, Option.map_eq_some_iff, Prod.mk.injEq] at h
    obtain ⟨_, h, rfl, rfl⟩ := h
    simpa using eq_append_of_strip? h
  | cons c s ih =>
    unfold cutLast? at h
    split at h
    · rename_i hs
      simp only [Option.some.injEq, Prod.mk.injEq] at h
      obtain ⟨rfl, rfl⟩ := h
      rw [ih hs]
      simp
    · simp only [Option.map_eq_some_iff, Prod.mk.injEq] at h
      obtain ⟨_, h, rfl, rfl⟩ := h
      simpa using eq_append_of_strip? h

end DocStore.Chars

/-! ## On strings -/

namespace DocStore.Text

/-- The parts of `s` between occurrences of `sep`. -/
def splitOn (sep : Char) (s : String) : List String :=
  (Chars.splitOn sep s.toList).map String.ofList

/-- What follows `pre` in `s`, if `s` begins with it. -/
def strip? (pre s : String) : Option String :=
  (Chars.strip? pre.toList s.toList).map String.ofList

/-- The text before and after the first occurrence of `sep`. -/
def cut? (sep s : String) : Option (String × String) :=
  (Chars.cut? sep.toList s.toList).map fun (a, b) => (.ofList a, .ofList b)

/-- The text before and after the last occurrence of `sep`. -/
def cutLast? (sep s : String) : Option (String × String) :=
  (Chars.cutLast? sep.toList s.toList).map fun (a, b) => (.ofList a, .ofList b)

end DocStore.Text
