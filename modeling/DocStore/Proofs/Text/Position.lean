import DocStore.Proofs.Text.Split

/-!
# Positions in bytes

Text can also be cut at positions, which are counted in bytes of UTF-8.
A slice from one position to another fails if one of them lies behind the
end or inside a character, or if they are in the wrong order. At the
places where separators are found no slice fails: it gives what `cut?`
and `cutLast?` give.

Main statements: `slice?_append`, `firstAt?_eq`, `lastAt?_eq`.
-/

namespace DocStore.Chars

/-! ## Slices -/

/-- The bytes that a text takes in UTF-8. -/
def byteSize : List Char → Nat
  | [] => 0
  | c :: s => c.utf8Size + byteSize s

/-- The first `n` bytes of a text, if there are so many and a character
ends there. -/
def takeBytes? : Nat → List Char → Option (List Char)
  | 0, _ => some []
  | _ + 1, [] => none
  | n + 1, c :: s =>
    if c.utf8Size ≤ n + 1 then (takeBytes? (n + 1 - c.utf8Size) s).map (c :: ·) else none

/-- What follows the first `n` bytes of a text, if there are so many and a
character ends there. -/
def dropBytes? : Nat → List Char → Option (List Char)
  | 0, s => some s
  | _ + 1, [] => none
  | n + 1, c :: s => if c.utf8Size ≤ n + 1 then dropBytes? (n + 1 - c.utf8Size) s else none

/-- The text between two positions. -/
def slice? (start stop : Nat) (s : List Char) : Option (List Char) :=
  (takeBytes? stop s).bind (dropBytes? start)

theorem byteSize_append (a b : List Char) : byteSize (a ++ b) = byteSize a + byteSize b := by
  induction a with
  | nil => simp [byteSize]
  | cons c a ih => rw [List.cons_append, byteSize, byteSize, ih, Nat.add_assoc]

/-- A character takes at least one byte. -/
theorem byteSize_cons_eq_succ (c : Char) (s : List Char) :
    ∃ n, byteSize (c :: s) = n + 1 ∧ c.utf8Size ≤ n + 1 ∧ n + 1 - c.utf8Size = byteSize s := by
  have hpos := c.utf8Size_pos
  refine ⟨c.utf8Size - 1 + byteSize s, ?_, ?_, ?_⟩
  · rw [byteSize]
    omega
  · omega
  · omega

theorem takeBytes?_append (a b : List Char) : takeBytes? (byteSize a) (a ++ b) = some a := by
  induction a with
  | nil => rw [byteSize, takeBytes?]
  | cons c a ih =>
    obtain ⟨n, hn, hle, hrest⟩ := byteSize_cons_eq_succ c a
    rw [hn, List.cons_append, takeBytes?, if_pos hle, hrest, ih]
    rfl

theorem dropBytes?_append (a b : List Char) : dropBytes? (byteSize a) (a ++ b) = some b := by
  induction a with
  | nil => rw [byteSize, dropBytes?, List.nil_append]
  | cons c a ih =>
    obtain ⟨n, hn, hle, hrest⟩ := byteSize_cons_eq_succ c a
    rw [hn, List.cons_append, dropBytes?, if_pos hle, hrest, ih]

/-- The slice from the end of one part of a text to the end of the next. -/
theorem slice?_append (a b c : List Char) :
    slice? (byteSize a) (byteSize (a ++ b)) (a ++ b ++ c) = some b := by
  rw [slice?, takeBytes?_append, Option.bind_some, dropBytes?_append]

/-! ## Places of separators -/

/-- Where a separator occurs first. -/
def firstAt? (sep : List Char) : List Char → Option Nat
  | [] => if sep <+: [] then some 0 else none
  | c :: s => if sep <+: c :: s then some 0 else (firstAt? sep s).map (c.utf8Size + ·)

/-- Where a character occurs last. -/
def lastAt? (sep : Char) : List Char → Option Nat
  | [] => none
  | c :: s =>
    match lastAt? sep s with
    | some n => some (c.utf8Size + n)
    | none => if c = sep then some 0 else none

theorem strip?_eq_none_iff {pre s : List Char} : strip? pre s = none ↔ ¬ pre <+: s := by
  constructor
  · rintro hnone ⟨r, rfl⟩
    rw [strip?_append] at hnone
    cases hnone
  · intro h
    exact strip?_eq_none fun r hr => h ⟨r, hr.symm⟩

theorem firstAt?_eq (sep s : List Char) :
    firstAt? sep s = (cut? sep s).map fun parts => byteSize parts.1 := by
  induction s with
  | nil =>
    rw [firstAt?, cut?]
    cases hstrip : strip? sep [] with
    | none => rw [if_neg (strip?_eq_none_iff.mp hstrip)]; rfl
    | some rest => rw [if_pos ⟨rest, (eq_append_of_strip? hstrip).symm⟩]; rfl
  | cons c s ih =>
    rw [firstAt?, cut?]
    cases hstrip : strip? sep (c :: s) with
    | none =>
      rw [if_neg (strip?_eq_none_iff.mp hstrip), ih]
      cases cut? sep s <;> rfl
    | some rest =>
      rw [if_pos ⟨rest, (eq_append_of_strip? hstrip).symm⟩]
      rfl

theorem firstAt?_of_cut? {sep s before rest : List Char} (h : cut? sep s = some (before, rest)) :
    firstAt? sep s = some (byteSize before) := by
  rw [firstAt?_eq, h]
  rfl

theorem lastAt?_eq (sep : Char) (s : List Char) :
    lastAt? sep s = (cutLast? [sep] s).map fun parts => byteSize parts.1 := by
  induction s with
  | nil => rfl
  | cons c s ih =>
    rw [lastAt?, cutLast?, ih]
    cases cutLast? [sep] s with
    | some parts => rfl
    | none =>
      by_cases h : c = sep
      · simp [h, strip?, byteSize]
      · simp [h, strip?, Ne.symm h]

/-- A character that is not in the end of a text is found before it. -/
theorem cutLast?_append_of_none {sep : Char} {s : List Char} (h : cutLast? [sep] s = none)
    (a : List Char) :
    cutLast? [sep] (a ++ s) = (cutLast? [sep] a).map fun (b, rest) => (b, rest ++ s) := by
  induction a with
  | nil => simpa [cutLast?, strip?] using h
  | cons c a ih =>
    rw [List.cons_append, cutLast?, cutLast?, ih]
    cases cutLast? [sep] a with
    | some parts => rfl
    | none => by_cases hc : sep = c <;> simp [strip?, hc]

end DocStore.Chars
