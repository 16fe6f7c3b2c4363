import DocStore.Text.Integer

/-!
# Written numbers are read

The decimal digits of a number are read back as that number, within the
range that is read at all. The two kinds of integers agree where there
is no minus sign.
-/

namespace DocStore.Chars

theorem digitsFrom_eq_some {s : List Char} (h : ∀ c ∈ s, c.isDigit = true) (n : Nat) :
    digitsFrom n s = some (Nat.ofDigitChars 10 s n) := by
  induction s generalizing n with
  | nil => simp [digitsFrom]
  | cons c s ih =>
    rw [List.forall_mem_cons] at h
    rw [digitsFrom, if_pos h.1, ih h.2, Nat.ofDigitChars_cons]
    rfl

theorem isDigit_toDigits (n : Nat) : ∀ c ∈ Nat.toDigits 10 n, c.isDigit = true :=
  fun _ hc => Nat.isDigit_of_mem_toDigits (by decide) (by decide) hc

theorem takeWhile_toDigits (n : Nat) {rest : List Char}
    (hrest : ∀ c ∈ rest.head?, c.isDigit = false) :
    (Nat.toDigits 10 n ++ rest).takeWhile Char.isDigit = Nat.toDigits 10 n := by
  rw [List.takeWhile_append_of_pos (isDigit_toDigits n)]
  cases rest with
  | nil => simp
  | cons c rest => simp [hrest c rfl]

theorem dropWhile_toDigits (n : Nat) {rest : List Char}
    (hrest : ∀ c ∈ rest.head?, c.isDigit = false) :
    (Nat.toDigits 10 n ++ rest).dropWhile Char.isDigit = rest := by
  rw [List.dropWhile_append_of_pos (isDigit_toDigits n)]
  cases rest with
  | nil => rfl
  | cons c rest => simp [hrest c rfl]

theorem nat?_toDigits (n : Nat) : nat? (Nat.toDigits 10 n) = some n := by
  have hdigits := isDigit_toDigits n
  have hread : digitsFrom 0 (Nat.toDigits 10 n) = some n := by
    rw [digitsFrom_eq_some hdigits, Nat.ofDigitChars_ten_toDigits]
  cases h : Nat.toDigits 10 n with
  | nil => exact absurd h Nat.toDigits_ne_nil
  | cons c s =>
    rw [h] at hread
    exact hread

/-- Digits have no sign to strip. -/
theorem size?_toDigits {n : Nat} (h : n ≤ 18446744073709551615) :
    size? (Nat.toDigits 10 n) = some n := by
  have hplus : '+' ∉ Nat.toDigits 10 n := fun hmem => by
    have := Nat.isDigit_of_mem_toDigits (by decide) (by decide) hmem
    revert this
    decide
  unfold size?
  split
  · next s hs =>
    rw [hs] at hplus
    exact absurd (List.mem_cons_self ..) hplus
  · show (nat? (Nat.toDigits 10 n)).filter _ = _
    rw [nat?_toDigits, Option.filter_some, if_pos (decide_eq_true h)]

/-- An integer without a minus sign is read as the same number. -/
theorem size?_of_int64? {s : List Char} {i : Int} (hi : int64? s = some i)
    (hminus : s.head? ≠ some '-') : 0 ≤ i ∧ size? s = some i.toNat := by
  have hbounds := int64?_bounds hi
  have hint : int? s = some i := (Option.filter_eq_some_iff.mp hi).1
  have hread : ∀ (digits : List Char) (n : Nat), nat? digits = some n → (n : Int) = i →
      0 ≤ i ∧ (nat? digits).filter (· ≤ 18446744073709551615) = some i.toNat := by
    rintro digits n hn rfl
    have hle : n ≤ 18446744073709551615 := by omega
    refine ⟨by omega, ?_⟩
    rw [hn, Option.filter_some, if_pos (decide_eq_true hle), Int.toNat_natCast]
  unfold int? at hint
  split at hint
  · rename_i digits
    obtain ⟨n, hn, hni⟩ : ∃ n, nat? digits = some n ∧ (n : Int) = i := by
      simpa [Option.bind_eq_some_iff] using hint
    exact hread digits n hn hni
  · exact absurd rfl hminus
  · rename_i hplus _
    obtain ⟨n, hn, hni⟩ : ∃ n, nat? s = some n ∧ (n : Int) = i := by
      simpa [Option.bind_eq_some_iff] using hint
    have hsize : size? s = (nat? s).filter (· ≤ 18446744073709551615) := by
      unfold size?
      split
      · exact absurd rfl (hplus _)
      · rfl
    rw [hsize]
    exact hread s n hn hni

end DocStore.Chars
