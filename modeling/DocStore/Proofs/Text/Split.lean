import DocStore.Text.Blank
import DocStore.Text.Split

/-!
# Where text is cut

A separator is found at its first occurrence if its first character is
not in what stands before, and at its last occurrence wherever it was
found in the end of the text. Parts without a character, joined with it,
are cut into the same parts.
-/

namespace DocStore.Chars

/-! ## Every occurrence -/

theorem splitOn_append_sep (sep : Char) (a s : List Char) :
    splitOn sep (a ++ sep :: s) = splitOn sep a ++ splitOn sep s := by
  induction a with
  | nil => exact splitOn_cons_sep sep s
  | cons c a ih =>
    rw [List.cons_append, splitOn, splitOn, ih]
    split
    · rfl
    · obtain ⟨part, parts, h⟩ := List.exists_cons_of_ne_nil (splitOn_ne_nil sep a)
      rw [h]
      rfl

theorem splitOn_intercalate {sep : Char} : ∀ {parts : List (List Char)}, parts ≠ [] →
    (∀ part ∈ parts, sep ∉ part) → splitOn sep ([sep].intercalate parts) = parts
  | [part], _, h => by
    rw [List.intercalate_singleton, splitOn_of_not_mem (h part (by simp))]
  | part :: next :: parts, _, h => by
    rw [List.forall_mem_cons] at h
    rw [List.intercalate_cons_cons, List.append_assoc, List.singleton_append,
      splitOn_append_sep, splitOn_of_not_mem h.1, splitOn_intercalate (by simp) h.2]
    rfl

/-- Joined with another character, the parts are the text with that character
for the separator. -/
theorem intercalate_splitOn (sep d : Char) (s : List Char) :
    [d].intercalate (splitOn sep s) = s.map fun c => if c = sep then d else c := by
  induction s with
  | nil => rfl
  | cons c s ih =>
    obtain ⟨part, parts, h⟩ := List.exists_cons_of_ne_nil (splitOn_ne_nil sep s)
    rw [splitOn, h, List.map_cons, ← ih, h]
    split
    · rw [List.intercalate_cons_cons, List.nil_append, List.singleton_append]
    · cases parts with
      | nil => rw [List.intercalate_singleton, List.intercalate_singleton]
      | cons next parts =>
        rw [List.intercalate_cons_cons, List.intercalate_cons_cons]
        rfl

/-! ## The first occurrence -/

theorem strip?_cons_ne {p c : Char} (h : p ≠ c) (pre s : List Char) :
    strip? (p :: pre) (c :: s) = none := by
  rw [strip?, if_neg h]

theorem strip?_eq_none {pre s : List Char} (h : ∀ r, s ≠ pre ++ r) : strip? pre s = none :=
  Option.eq_none_iff_forall_ne_some.mpr fun r hr => h r (eq_append_of_strip? hr)

theorem cut?_append_of_not_mem {c : Char} (sep : List Char) {a : List Char} (h : c ∉ a)
    (s : List Char) :
    cut? (c :: sep) (a ++ s) = (cut? (c :: sep) s).map fun (b, rest) => (a ++ b, rest) := by
  induction a with
  | nil => simp
  | cons d a ih =>
    rw [List.mem_cons, not_or] at h
    rw [List.cons_append, cut?, strip?_cons_ne h.1, ih h.2, Option.map_map]
    rfl

theorem cut?_append {c : Char} (sep : List Char) {a s b rest : List Char} (h : c ∉ a)
    (hcut : cut? (c :: sep) s = some (b, rest)) :
    cut? (c :: sep) (a ++ s) = some (a ++ b, rest) := by
  rw [cut?_append_of_not_mem sep h, hcut]
  rfl

theorem cut?_cons {c : Char} {sep s b rest : List Char} (h : strip? sep (c :: s) = none)
    (hcut : cut? sep s = some (b, rest)) : cut? sep (c :: s) = some (c :: b, rest) := by
  rw [cut?, h, hcut]
  rfl

theorem cut?_self (c : Char) (sep b : List Char) :
    cut? (c :: sep) (c :: sep ++ b) = some ([], b) := by
  rw [List.cons_append, cut?, ← List.cons_append, strip?_append]

/-- The text before a separator whose first character it does not have. -/
theorem cut?_first {c : Char} {sep a : List Char} (h : c ∉ a) (b : List Char) :
    cut? (c :: sep) (a ++ (c :: sep ++ b)) = some (a, b) := by
  rw [cut?_append_of_not_mem sep h, cut?_self]
  simp

/-- No separator is found with a character that the text does not have. -/
theorem cut?_eq_none_of_not_mem {c : Char} {sep s : List Char} (hsep : c ∈ sep) (h : c ∉ s) :
    cut? sep s = none := by
  rw [Option.eq_none_iff_forall_ne_some]
  rintro ⟨a, b⟩ hcut
  rw [eq_append_of_cut? hcut] at h
  simp [hsep] at h

theorem isSome_cut? (sep a b : List Char) : (cut? sep (a ++ (sep ++ b))).isSome := by
  induction a with
  | nil =>
    cases h : sep ++ b with
    | nil => simp_all [cut?, strip?]
    | cons c s => rw [List.nil_append, cut?, ← h, strip?_append, Option.isSome_some]
  | cons d a ih =>
    rw [List.cons_append, cut?]
    split
    · rfl
    · rw [Option.isSome_map, ih]

section Single

variable {c : Char} {s : List Char}

theorem cut?_eq_none_iff : cut? [c] s = none ↔ c ∉ s := by
  constructor
  · rintro hnone hmem
    obtain ⟨a, b, rfl⟩ := List.append_of_mem hmem
    have hsome := isSome_cut? [c] a b
    rw [List.singleton_append, hnone] at hsome
    cases hsome
  · intro h
    have hcut := cut?_append_of_not_mem [] h []
    rwa [List.append_nil] at hcut

theorem cut?_eq_some_iff {a b : List Char} :
    cut? [c] s = some (a, b) ↔ s = a ++ c :: b ∧ c ∉ a := by
  constructor
  · intro hcut
    have hs := eq_append_of_cut? hcut
    rw [List.append_assoc, List.singleton_append] at hs
    refine ⟨hs, fun hmem => ?_⟩
    -- an earlier occurrence would have been found first
    obtain ⟨a₁, a₂, rfl, hfirst⟩ := List.eq_append_cons_of_mem hmem
    rw [hs, List.append_assoc, List.cons_append] at hcut
    have hearlier : cut? [c] (a₁ ++ c :: (a₂ ++ c :: b)) = some (a₁, a₂ ++ c :: b) :=
      cut?_first hfirst _
    rw [hearlier] at hcut
    have hlength := congrArg (fun cut => (cut.map fun parts => parts.1.length).getD 0) hcut
    simp at hlength
  · rintro ⟨rfl, h⟩
    exact cut?_first h b

end Single

/-! ## The last occurrence -/

theorem cutLast?_append {sep s b rest : List Char} (a : List Char)
    (h : cutLast? sep s = some (b, rest)) : cutLast? sep (a ++ s) = some (a ++ b, rest) := by
  induction a with
  | nil => exact h
  | cons d a ih =>
    rw [List.cons_append, cutLast?, ih]
    rfl

/-! ## Trimming -/

theorem mem_of_mem_trim {c : Char} {s : List Char} (h : c ∈ trim s) : c ∈ s := by
  have hright : c ∈ (trimLeft s).reverse :=
    (List.dropWhile_sublist DocStore.isBlank).subset (List.mem_reverse.mp h)
  exact (List.dropWhile_sublist DocStore.isBlank).subset (List.mem_reverse.mp hright)

theorem mem_dropWhile_of_not {p : Char → Bool} {c : Char} (hc : p c = false) :
    ∀ {s : List Char}, c ∈ s → c ∈ s.dropWhile p
  | d :: s, h => by
    rw [List.dropWhile_cons]
    split
    · rename_i hd
      rcases List.mem_cons.mp h with rfl | h
      · rw [hc] at hd
        cases hd
      · exact mem_dropWhile_of_not hc h
    · exact h

/-- Only blanks are cut off. -/
theorem mem_trim_of_mem {c : Char} (hc : DocStore.isBlank c = false) {s : List Char} (h : c ∈ s) :
    c ∈ trim s :=
  List.mem_reverse.mpr
    (mem_dropWhile_of_not hc (List.mem_reverse.mpr (mem_dropWhile_of_not hc h)))

theorem head?_trimLeft {c : Char} {s : List Char} (h : c ∈ (trimLeft s).head?) :
    DocStore.isBlank c = false := by
  have hnot := List.head?_dropWhile_not DocStore.isBlank s
  rwa [← trimLeft, Option.mem_def.mp h] at hnot

theorem trim_trim (s : List Char) : trim (trim s) = trim s := by
  refine trim_eq_self (fun c hc => ?_) (fun c hc => ?_)
  · -- What is cut off at the right leaves the beginning.
    obtain ⟨blanks, h⟩ : trim s <+: trimLeft s := by
      rw [← List.reverse_suffix, trim, trimRight, List.reverse_reverse]
      exact List.dropWhile_suffix DocStore.isBlank
    refine head?_trimLeft (s := s) ?_
    rw [← h, List.head?_append, Option.mem_def.mp hc]
    rfl
  · rw [trim, trimRight, List.getLast?_reverse] at hc
    exact head?_trimLeft hc

theorem trim_append_blank {c : Char} (hc : DocStore.isBlank c = true) (s : List Char) :
    trim (s ++ [c]) = trim s := by
  have hleft : trimLeft (s ++ [c]) = if (trimLeft s).isEmpty then [] else trimLeft s ++ [c] := by
    rw [trimLeft, List.dropWhile_append, List.dropWhile_cons, if_pos hc]
    rfl
  rw [trim, hleft]
  split
  · next h => rw [trim, List.isEmpty_iff.mp h]
  · rw [trimRight, List.reverse_append, List.reverse_singleton, List.singleton_append,
      List.dropWhile_cons, if_pos hc, trim, trimRight]

/-! ## The first word -/

theorem firstWord_append {w : List Char} (hne : w ≠ []) (hw : ∀ c ∈ w, DocStore.isBlank c = false)
    {d : Char} (hd : DocStore.isBlank d = true) (s : List Char) : firstWord (w ++ d :: s) = w := by
  obtain ⟨c, w, rfl⟩ := List.exists_cons_of_ne_nil hne
  have hc : DocStore.isBlank c = false := hw c List.mem_cons_self
  have hleft : trimLeft (c :: w ++ d :: s) = c :: w ++ d :: s := by
    rw [trimLeft, List.cons_append, List.dropWhile_cons, if_neg (by simp [hc])]
  rw [firstWord, hleft, List.takeWhile_append_of_pos]
  · rw [List.takeWhile_cons, if_neg (by simp [hd]), List.append_nil]
  · intro x hx
    simp [hw x hx]

end DocStore.Chars

/-! ## On strings -/

namespace DocStore.Text

theorem cut?_dot_eq_none_iff {s : String} : cut? "." s = none ↔ '.' ∉ s.toList := by
  rw [cut?, Option.map_eq_none_iff]
  exact Chars.cut?_eq_none_iff

theorem cut?_dot_eq_some_iff {s a b : String} :
    cut? "." s = some (a, b) ↔ s = a ++ "." ++ b ∧ '.' ∉ a.toList := by
  have hchars : s = a ++ "." ++ b ↔ s.toList = a.toList ++ '.' :: b.toList := by
    rw [← String.toList_inj]
    simp
  rw [hchars, ← Chars.cut?_eq_some_iff, cut?, Option.map_eq_some_iff]
  constructor
  · rintro ⟨⟨_, _⟩, hcut, heq⟩
    cases heq
    rwa [String.toList_ofList, String.toList_ofList]
  · intro hcut
    exact ⟨_, hcut, Prod.ext String.ofList_toList String.ofList_toList⟩

theorem splitOn_of_not_mem {sep : Char} {s : String} (h : sep ∉ s.toList) :
    splitOn sep s = [s] := by
  rw [splitOn, Chars.splitOn_of_not_mem h, List.map_singleton, String.ofList_toList]

theorem splitOn_ne_nil (sep : Char) (s : String) : splitOn sep s ≠ [] := by
  rw [splitOn, ne_eq, List.map_eq_nil_iff]
  exact Chars.splitOn_ne_nil sep s.toList

theorem toList_intercalate_splitOn (sep d : Char) (s : String) :
    ((String.ofList [d]).intercalate (splitOn sep s)).toList =
      s.toList.map fun c => if c = sep then d else c := by
  rw [String.toList_intercalate, splitOn, List.map_map, ← Chars.intercalate_splitOn]
  simp [Function.comp_def]

theorem splitOn_append_dot (a b : String) :
    splitOn '.' (a ++ "." ++ b) = splitOn '.' a ++ splitOn '.' b := by
  have hchars : (a ++ "." ++ b).toList = a.toList ++ '.' :: b.toList := by simp
  rw [splitOn, hchars, Chars.splitOn_append_sep, List.map_append]
  rfl

/-- A text has no dot, or is cut at the first one. -/
theorem exists_first_dot (s : String) :
    '.' ∉ s.toList ∨ ∃ a b, '.' ∉ a.toList ∧ s = a ++ "." ++ b := by
  cases hcut : cut? "." s with
  | none => exact .inl (cut?_dot_eq_none_iff.mp hcut)
  | some parts =>
    obtain ⟨a, b⟩ := parts
    obtain ⟨hs, ha⟩ := cut?_dot_eq_some_iff.mp hcut
    exact .inr ⟨a, b, ha, hs⟩

theorem mem_trim_iff {c : Char} (hc : DocStore.isBlank c = false) {s : String} :
    c ∈ (trim s).toList ↔ c ∈ s.toList := by
  rw [trim, String.toList_ofList]
  exact ⟨Chars.mem_of_mem_trim, Chars.mem_trim_of_mem hc⟩

theorem trim_trim (s : String) : trim (trim s) = trim s := by
  simp [trim, Chars.trim_trim]

theorem not_mem_of_mem_splitOn {sep : Char} {s part : String} (h : part ∈ splitOn sep s) :
    sep ∉ part.toList := by
  obtain ⟨chars, hchars, rfl⟩ := List.mem_map.mp h
  rw [String.toList_ofList]
  exact Chars.not_mem_of_mem_splitOn hchars

theorem not_mem_trim_of_mem_splitOn {sep : Char} {s part : String} (h : part ∈ splitOn sep s) :
    sep ∉ (trim part).toList := by
  rw [trim, String.toList_ofList]
  exact fun hsep => not_mem_of_mem_splitOn h (Chars.mem_of_mem_trim hsep)

end DocStore.Text
