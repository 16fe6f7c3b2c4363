import DocStore.Proofs.Clause.Server
import DocStore.Proofs.Text.Integer

/-!
# A plain database

What clauses leave to the database can be had: numbers are shown as
decimal literals, texts are in the order of their code points, and JSON
values are first in the order of their kinds.

Main definition: `Server.plain`.
-/

namespace DocStore

namespace Number

/-! ## Literals are read -/

theorem digitsValue_toDigits (n : Nat) : digitsValue (Nat.toDigits 10 n) = n := by
  have hfold : digitsValue (Nat.toDigits 10 n) = Nat.ofDigitChars 10 (Nat.toDigits 10 n) 0 :=
    Nat.ofDigitChars_eq_foldl.symm
  rw [hfold, Nat.ofDigitChars_ten_toDigits]

theorem toDigits_eq_cons (n : Nat) :
    ∃ c s, Nat.toDigits 10 n = c :: s ∧ c.isDigit = true := by
  cases h : Nat.toDigits 10 n with
  | nil => exact absurd h Nat.toDigits_ne_nil
  | cons c s => exact ⟨c, s, rfl, Chars.isDigit_toDigits n c (by simp [h])⟩

/-- Only a single digit may be zero in front. -/
theorem length_toDigits_of_head? {n : Nat} (h : (Nat.toDigits 10 n).head? = some '0') :
    (Nat.toDigits 10 n).length = 1 := by
  induction n using Nat.strongRecOn with
  | ind n ih =>
    by_cases hn : n < 10
    · rw [Nat.toDigits_of_lt_base hn, List.length_singleton]
    · rw [Nat.toDigits_of_base_le (by decide) (by omega)] at h
      have hhead : (Nat.toDigits 10 (n / 10)).head? = some '0' := by
        obtain ⟨c, s, hc, -⟩ := toDigits_eq_cons (n / 10)
        rw [hc] at h ⊢
        exact h
      -- the leading digits are of a positive number, which is below ten and not zero
      have hlength := ih (n / 10) (by omega) hhead
      have hsmall : n / 10 < 10 := by
        have := (Nat.length_toDigits_le_iff (b := 10) (n := n / 10) (k := 1)
          (by decide) (by decide)).mp (by omega)
        simpa using this
      have hdigit : ∀ n < 10, 0 < n → Nat.digitChar n ≠ '0' := by decide
      rw [Nat.toDigits_of_lt_base hsmall] at hhead
      exact absurd (by simpa using hhead) (hdigit _ hsmall (by omega))

/-- An exponent without a sign. -/
theorem exponent?_toDigits (n : Nat) :
    exponent? ('e' :: Nat.toDigits 10 n) = some (some (n : Int)) := by
  have hall : (Nat.toDigits 10 n).all Char.isDigit = true :=
    List.all_eq_true.mpr (Chars.isDigit_toDigits n)
  have hvalue := digitsValue_toDigits n
  obtain ⟨c, s, hc, hdigit⟩ := toDigits_eq_cons n
  rw [hc] at hall hvalue ⊢
  unfold exponent?
  simp only
  rw [if_pos (by decide)]
  split
  · rename_i hminus
    cases hminus
    cases hdigit
  · rename_i hplus
    cases hplus
    cases hdigit
  · have htest : (decide (c :: s ≠ []) && (c :: s).all Char.isDigit) = true := by
      rw [hall]
      rfl
    show (if _ then some (some (digitsValue (c :: s) : Int)) else none) = _
    rw [if_pos htest, hvalue]

theorem exponent?_minus (n : Nat) :
    exponent? ('e' :: '-' :: Nat.toDigits 10 n) = some (some (-(n : Int))) := by
  have hall : (Nat.toDigits 10 n).all Char.isDigit = true :=
    List.all_eq_true.mpr (Chars.isDigit_toDigits n)
  have hne : (decide (Nat.toDigits 10 n ≠ []) && (Nat.toDigits 10 n).all Char.isDigit) = true := by
    rw [hall, decide_eq_true Nat.toDigits_ne_nil]
    rfl
  show (if _ then some (some (-(digitsValue (Nat.toDigits 10 n) : Int))) else none) = _
  rw [if_pos hne, digitsValue_toDigits]

theorem exponent?_intChars (e : Int) : exponent? ('e' :: intChars e) = some (some e) := by
  unfold intChars
  split
  · rw [exponent?_minus]
    congr
    omega
  · rw [exponent?_toDigits]
    congr
    omega

/-- Digits after an optional minus sign, before an exponent or the end. -/
theorem literal?_digits (negative : Bool) (n : Nat) {rest : List Char}
    (hrest : ∀ c ∈ rest.head?, c = 'e') :
    literal? ((if negative then ['-'] else []) ++ (Nat.toDigits 10 n ++ rest)) =
      (exponent? rest).map fun e => ⟨negative, Nat.toDigits 10 n, [], e.getD 0, e.isNone⟩ := by
  have hdigit : ∀ c ∈ rest.head?, c.isDigit = false := by
    intro c hc
    rw [hrest c hc]
    rfl
  have htake := Chars.takeWhile_toDigits n hdigit
  have hdrop := Chars.dropWhile_toDigits n hdigit
  have hzero : (decide (Nat.toDigits 10 n = []) ||
      (decide ((Nat.toDigits 10 n).head? = some '0') &&
        decide (1 < (Nat.toDigits 10 n).length))) = false := by
    rw [decide_eq_false Nat.toDigits_ne_nil, Bool.false_or, Bool.and_eq_false_iff]
    by_cases h : (Nat.toDigits 10 n).head? = some '0'
    · exact .inr (decide_eq_false (by rw [length_toDigits_of_head? h]; decide))
    · exact .inl (decide_eq_false h)
  unfold literal?
  split
  rename_i negative' s heq
  obtain ⟨rfl, rfl⟩ : negative = negative' ∧ Nat.toDigits 10 n ++ rest = s := by
    cases negative with
    | true =>
      cases heq
      exact ⟨rfl, rfl⟩
    | false =>
      obtain ⟨c, t, hc, hcdigit⟩ := toDigits_eq_cons n
      rw [hc] at heq ⊢
      split at heq
      · rename_i hminus
        cases hminus
        cases hcdigit
      · cases heq
        exact ⟨rfl, rfl⟩
  simp only [htake, hdrop]
  rw [if_neg (by rw [hzero]; decide)]
  split
  · rename_i s' _ _
    cases hrest '.' rfl
  · rfl

/-! ## Numbers as literals -/

/-- A floating-point number with an exponent, whatever its size. -/
def decimalChars : Number → List Char
  | .int i _ _ => intChars i
  | .float x _ =>
    let d := (binaryOf x).shortest .toEven
    (if signBit x then ['-'] else []) ++ (Nat.toDigits 10 d.digits ++ 'e' :: intChars d.exponent)

theorem value_digits (negative plain : Bool) (n : Nat) (e : Int) :
    Literal.value ⟨negative, Nat.toDigits 10 n, [], e, plain⟩ =
      if negative then -(Decimal.mk n e).value else (Decimal.mk n e).value := by
  rw [Literal.value, List.append_nil, digitsValue_toDigits, List.length_nil, Int.natCast_zero,
    Int.sub_zero]

theorem intChars_eq (i : Int) :
    intChars i = (if decide (i < 0) then ['-'] else []) ++ (Nat.toDigits 10 i.natAbs ++ []) := by
  rw [List.append_nil, intChars]
  by_cases h : i < 0 <;> simp [h]

theorem value_literal?_decimalChars (n : Number) :
    (literal? n.decimalChars).map Literal.value = some n.value := by
  cases n with
  | float x finite =>
    rw [decimalChars, literal?_digits _ _ (by simp), exponent?_intChars, Option.map_some,
      Option.map_some, value_digits]
    rfl
  | int i low high =>
    have hwhole : ∀ n : Nat, (Decimal.mk n 0).value = n := by
      intro n
      rw [Decimal.value, Rat.zpow_zero, Rat.mul_one]
    rw [decimalChars, intChars_eq, literal?_digits _ _ (by simp), exponent?, Option.map_some,
      Option.map_some, value_digits, Option.getD_none, hwhole, value]
    rw [← Rat.intCast_natCast]
    by_cases h : i < 0
    · rw [decide_eq_true h, if_pos rfl, Int.ofNat_natAbs_of_nonpos (by omega), Rat.intCast_neg,
        Rat.neg_neg]
    · rw [decide_eq_false h, if_neg (by decide), Int.natAbs_of_nonneg (by omega)]

end Number

/-! ## The database -/

namespace Clause

/-- The place of a value among the kinds of values. -/
def kindRank : Json → Nat
  | .null => 0
  | .str _ => 1
  | .num _ => 2
  | .bool _ => 3
  | .arr _ => 4
  | .obj _ => 5

/-- Numbers by value, other values of one kind by their text. -/
def kindOrder : Json → Json → Ordering
  | .num m, .num n => numberOrder m.value n.value
  | .bool a, .bool b => compare a b
  | i, j => (compare (kindRank i) (kindRank j)).then (compare i.text j.text)

theorem compareOfLessAndEq_eq_iff {α : Type} [LT α] [DecidableLT α] [DecidableEq α]
    (hirrefl : ∀ a : α, ¬ a < a) {a b : α} : compareOfLessAndEq a b = .eq ↔ a = b := by
  unfold compareOfLessAndEq
  split
  · rename_i h
    constructor
    · rintro ⟨⟩
    · rintro rfl
      exact absurd h (hirrefl a)
  · split <;> simp_all

theorem kindOrder_num {j : Json} {n : Number} :
    kindOrder j (.num n) = .eq ↔ ∃ m, j = .num m ∧ m.value = n.value := by
  cases j with
  | num m =>
    rw [kindOrder, numberOrder, compareOfLessAndEq_eq_iff fun _ => Rat.lt_irrefl]
    simp
  | _ =>
    constructor
    · rintro ⟨⟩
    · rintro ⟨m, ⟨⟩, -⟩

theorem kindOrder_bool {j : Json} {b : Bool} : kindOrder j (.bool b) = .eq ↔ j = .bool b := by
  cases j with
  | bool a => cases a <;> cases b <;> simp [kindOrder]
  | _ =>
    constructor
    · rintro ⟨⟩
    · rintro ⟨⟩

def Server.plain : Server where
  text
    | .num n => .ofList n.decimalChars
    | j => j.text
  textOrder := compare
  jsonOrder := kindOrder
  numeric?_text n := by
    rw [numeric?, String.toList_ofList]
    exact n.value_literal?_decimalChars
  text_bool b := by cases b <;> rfl
  textOrder_eq := compareOfLessAndEq_eq_iff String.lt_irrefl
  jsonOrder_num := kindOrder_num
  jsonOrder_bool := kindOrder_bool

end Clause

end DocStore
