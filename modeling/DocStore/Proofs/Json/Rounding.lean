import DocStore.Json.Number
import Mathlib.Algebra.Order.Ring.Int

/-!
# Integers as floating-point numbers

An integer that needs more than fifty-three bits is rounded: its digits
are shifted out on the right until the rest fits, the rest is rounded up
or not, and the exponent counts the shifts. Rounding adds at most one to
the mantissa, so the exponent stays near the number of digits shifted
out, and no integer of sixty-four bits comes near the largest exponent.

Main statement: `isFinite_ofInt`.
-/

namespace DocStore

open Float.Model Float.Model.UnpackedFloat

/-! ## Packing -/

theorem isFinite_unpack {spec : Format} {b : BitVec spec.numBits} (h : unpackExponent b ≠ -1#_) :
    (UnpackedFloat.unpack spec b).isFinite = true := by
  unfold UnpackedFloat.unpack
  by_cases hzero : unpackExponent b = 0#_
  · by_cases hmantissa : unpackMantissa b = 0#_
    · rw [if_neg h, if_pos hzero, dif_pos hmantissa]
      rfl
    · rw [if_neg h, if_pos hzero, dif_neg hmantissa]
      rfl
  · rw [if_neg h, if_neg hzero]
    rfl

/-- Zero, or finite with an exponent up to the bound. -/
def ExponentLe (bound : Int) : UnpackedFloat → Prop
  | .zero _ => True
  | .finite _ _ exponent _ => exponent ≤ bound
  | _ => False

/-- Finite numbers are packed with every exponent but the last. -/
theorem unpackExponent_pack_ne {x : UnpackedFloat} (h : ExponentLe 970 x) :
    unpackExponent (UnpackedFloat.pack Format.binary64 x) ≠ -1#_ := by
  cases x with
  | zero s =>
    show unpackExponent (packComponents Format.binary64 s 0 0) ≠ _
    rw [unpackExponent_packComponents]
    decide
  | finite s m e hm =>
    have he : e ≤ 970 := h
    have hbiased : (e + Format.binary64.exponentBias +
        Format.binary64.mantissaBitsWithoutImplicit).toNat + 1 < 2 ^ 11 := by
      show (e + 1023 + 52).toNat + 1 < 2 ^ 11
      omega
    unfold UnpackedFloat.pack
    dsimp only
    rw [if_neg (Nat.not_le.mpr hbiased)]
    split
    · rw [unpackExponent_packComponents]
      intro heq
      have hlast := congrArg BitVec.toNat heq
      rw [BitVec.toNat_ofNat, Nat.mod_eq_of_lt (Nat.lt_of_succ_lt hbiased),
        show (-1#(Format.binary64.exponentBits)).toNat = 2047 from rfl] at hlast
      omega
    · rw [unpackExponent_packComponents]
      decide
  | infinity s => exact h.elim
  | notANumber => exact h.elim

theorem isFinite_pack {x : UnpackedFloat} (h : ExponentLe 970 x) :
    (Float.Model.pack x).isFinite = true :=
  isFinite_unpack (unpackExponent_pack_ne h)

/-! ## Rounding -/

theorem mantissa_shiftRight_le (em : ExtendedMantissa) (n : Nat) :
    (em >>> n).mantissa ≤ em.mantissa := by
  show (n.repeat ExtendedMantissa.shiftRightOne em).mantissa ≤ _
  induction n with
  | zero => exact Nat.le_refl _
  | succ n ih => exact Nat.le_trans (Nat.div_le_self _ 2) ih

theorem roundedMantissa_le (em : ExtendedMantissa) : em.roundedMantissa ≤ em.mantissa + 1 := by
  unfold ExtendedMantissa.roundedMantissa
  cases em.accuracy with
  | exact => exact Nat.le_succ _
  | inexact order => cases order <;> simp only [Accuracy.roundToNearestEven] <;> omega

/-- Shifting makes the mantissa no larger, and the exponent only as large as
the digits of the mantissa need. -/
theorem shiftToTargetExponent_le {m k : Nat} (hm : m < 2 ^ k) (e : Int) :
    (shiftToTargetExponent Format.binary64 m e .exact).1.mantissa ≤ m ∧
      (shiftToTargetExponent Format.binary64 m e .exact).2 ≤ max e (max (k + 1 + e - 53) (-1074)) := by
  refine ⟨mantissa_shiftRight_le _ _, ?_⟩
  have hlog : m.log2 ≤ k := by
    by_cases hzero : m = 0
    · rw [hzero]
      exact Nat.zero_le k
    · exact Nat.le_of_lt ((Nat.log2_lt hzero).mpr hm)
  have htarget : Format.binary64.targetExponent (totalExponent m e) =
    max (m.log2 + 1 + e - 53) (-1074) := rfl
  show e + ((Format.binary64.targetExponent (totalExponent m e) - e).toNat : Int) ≤ _
  rw [htarget]
  omega

/-- What rounding shifts to: twice, since the mantissa may gain a digit in between. -/
def shiftTwice (m : Nat) (e : Int) : ExtendedMantissa × Int :=
  let first := shiftToTargetExponent Format.binary64 m e .exact
  shiftToTargetExponent Format.binary64 first.1.roundedMantissa first.2 .exact

theorem shiftTwice_le {m k : Nat} (hm : m < 2 ^ k) {e : Int} (he : max e 0 + 2 * k ≤ 970) :
    (shiftTwice m e).2 ≤ 970 := by
  obtain ⟨hmantissa, hexponent⟩ := shiftToTargetExponent_le hm e
  have hrounded : (shiftToTargetExponent Format.binary64 m e .exact).1.roundedMantissa <
      2 ^ (k + 1) := by
    have hle := roundedMantissa_le (shiftToTargetExponent Format.binary64 m e .exact).1
    rw [Nat.pow_succ]
    omega
  have hexponent' := (shiftToTargetExponent_le hrounded
    (shiftToTargetExponent Format.binary64 m e .exact).2).2
  rw [shiftTwice]
  omega

theorem exponentLe_round {m k : Nat} (hm : m < 2 ^ k) {e : Int} (he : max e 0 + 2 * k ≤ 970)
    (s : Sign) : ExponentLe 970 (roundWithAccuracy Format.binary64 s m e .exact) := by
  by_cases hzero : (shiftTwice m e).1.mantissa = 0
  · have hround : roundWithAccuracy Format.binary64 s m e .exact = .zero s := dif_pos hzero
    rw [hround]
    trivial
  · have hround : roundWithAccuracy Format.binary64 s m e .exact =
        .finite s (shiftTwice m e).1.mantissa (shiftTwice m e).2 (Nat.pos_of_ne_zero hzero) :=
      dif_neg hzero
    rw [hround]
    exact shiftTwice_le hm he

/-! ## Integers -/

/-- A product is rounded only once. -/
theorem mul_finite {spec : Format} {s₁ s₂ : Sign} {m₁ m₂ : Nat} {e₁ e₂ : Int} {h₁ : 0 < m₁}
    {h₂ : 0 < m₂} : UnpackedFloat.mul spec (.finite s₁ m₁ e₁ h₁) (.finite s₂ m₂ e₂ h₂) =
      roundWithAccuracy spec (s₁ * s₂) (m₁ * m₂) (e₁ + e₂) .exact := rfl

theorem exponentLe_ofScientific {n : Nat} (hzero : n ≠ 0) (high : n < 2 ^ 64) :
    ExponentLe 970 (UnpackedFloat.ofScientific Format.binary64 n 0) := by
  have hsmall : ¬ (0 : Int) < -((2 ^ Format.binary64.exponentBits : Int) + n.log2) := by
    show ¬ (0 : Int) < -(2048 + n.log2)
    omega
  have hdigits : n <<< Format.binary64.mantissaBits * 10 ^ Int.toNat 0 < 2 ^ 117 := by
    rw [Int.toNat_zero, Nat.pow_zero, Nat.mul_one, Nat.shiftLeft_eq]
    show n * 2 ^ 53 < 2 ^ 117
    omega
  unfold UnpackedFloat.ofScientific
  rw [dif_neg hzero, if_neg (by decide), if_neg hsmall, if_pos (Int.le_refl 0), mul_finite]
  exact exponentLe_round hdigits (by decide) _

theorem isFinite_ofNat {n : Nat} (low : 2 ^ 53 ≤ n) (high : n < 2 ^ 64) :
    (Float.ofNat n).isFinite = true := by
  have hslow : Float.ofNat n = .ofModel (Float.Model.ofScientific n 0) :=
    dif_neg fun h => Nat.not_lt.mpr low h.1
  rw [hslow]
  exact isFinite_pack (exponentLe_ofScientific (by omega) high)

/-- An integer that needs the sixty-fourth bit becomes a finite number. -/
theorem isFinite_ofInt {i : Int} (low : ¬ i ≤ 9223372036854775807)
    (high : i ≤ 18446744073709551615) : (Float.ofInt i).isFinite = true := by
  obtain ⟨n, rfl⟩ := Int.eq_ofNat_of_zero_le (by omega : 0 ≤ i)
  exact isFinite_ofNat (by omega) (by omega)

end DocStore
