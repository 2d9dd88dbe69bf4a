import Mathlib.Algebra.Group.Nat.Defs

/-!
# Whole numbers as doubles

Every whole number of 64 bits is far below the largest double, so the double
nearest to it is finite. The bound on the exponent is followed through the
rounding: taking the number to 53 bits moves its exponent to at most 11, and the
step after it, which repairs a carry, cannot add much to that.

Main result:

* `isFinite_toFloat` — a whole number of 64 bits is a finite double.
-/

namespace TypedConfig.Double

open Float.Model
open Float.Model.UnpackedFloat (Sign ExtendedMantissa)

/-! ## Packing -/

/-- Only an exponent of ones alone stands for what is not finite. -/
theorem isFinite_unpack {b : BitVec Format.binary64.numBits}
    (h : (UnpackedFloat.unpackExponent b : BitVec Format.binary64.exponentBits) ≠ -1#_) :
    (UnpackedFloat.unpack Format.binary64 b).isFinite = true := by
  show (ite (UnpackedFloat.unpackExponent b = -1#_) _ _ : UnpackedFloat).isFinite = true
  rw [if_neg h]
  -- the smallest exponent has numbers of its own, zero among them
  by_cases hSubnormal : (UnpackedFloat.unpackExponent b : BitVec Format.binary64.exponentBits) = 0#_
  · rw [if_pos hSubnormal]
    by_cases hZero : UnpackedFloat.unpackMantissa b = 0#_
    · rw [dif_pos hZero]
      rfl
    · rw [dif_neg hZero]
      rfl
  · rw [if_neg hSubnormal]
    rfl

theorem isFinite_pack_zero (sign : Sign) :
    (pack (.zero sign)).unpack.isFinite = true := by
  apply isFinite_unpack
  show UnpackedFloat.unpackExponent (UnpackedFloat.packComponents Format.binary64 sign 0 0) ≠ _
  rw [UnpackedFloat.unpackExponent_packComponents]
  decide

/-- A finite number with an exponent that fits is packed as a finite one. -/
theorem isFinite_pack_finite (sign : Sign) {m : Nat} {e : Int} (hPos : 0 < m) (hBound : e ≤ 971) :
    (pack (.finite sign m e hPos)).unpack.isFinite = true := by
  have hPack : UnpackedFloat.pack Format.binary64 (.finite sign m e hPos) =
      if 2 ^ 11 ≤ (e + 1023 + 52).toNat + 1 then UnpackedFloat.packedInfinity _ sign
      else if m.log2 + 1 = 53 then
        UnpackedFloat.packComponents _ sign (BitVec.ofNat _ (e + 1023 + 52).toNat)
          (BitVec.ofNat _ m)
      else UnpackedFloat.packComponents _ sign 0#_ (BitVec.ofNat _ m) := rfl
  apply isFinite_unpack
  show UnpackedFloat.unpackExponent
    (UnpackedFloat.pack Format.binary64 (.finite sign m e hPos)) ≠ _
  -- the exponent stays below that of infinity
  rw [hPack, if_neg (by omega)]
  split
  · rw [UnpackedFloat.unpackExponent_packComponents]
    intro hOnes
    have hNat := congrArg BitVec.toNat hOnes
    have hSize : 2 ^ Format.binary64.exponentBits = 2048 := rfl
    rw [BitVec.toNat_ofNat, hSize, Nat.mod_eq_of_lt (by omega)] at hNat
    have hMax : (-1#_ : BitVec Format.binary64.exponentBits).toNat = 2047 := by decide
    -- the biased exponent is at most 2046
    rw [hMax] at hNat
    omega
  · -- a shorter mantissa is stored with the exponent zero
    rw [UnpackedFloat.unpackExponent_packComponents]
    decide

/-! ## Rounding -/

/-- Shifting to the right does not make a mantissa larger. -/
theorem mantissa_shiftRight_le (em : ExtendedMantissa) (n : Nat) :
    (em >>> n).mantissa ≤ em.mantissa := by
  induction n with
  | zero => exact Nat.le_refl _
  | succ n ih =>
    show (em >>> n).mantissa / 2 ≤ em.mantissa
    omega

theorem roundedMantissa_le (em : ExtendedMantissa) :
    em.roundedMantissa ≤ em.mantissa + 1 := by
  unfold ExtendedMantissa.roundedMantissa UnpackedFloat.Accuracy.roundToNearestEven
  split <;> omega

theorem log2_lt_of_lt_two_pow {m k : Nat} (hk : 0 < k) (h : m < 2 ^ k) : m.log2 < k := by
  by_cases hZero : m = 0
  · rw [hZero, Nat.log2_zero]
    exact hk
  · exact (Nat.log2_lt hZero).mpr h

/-- A shift takes a mantissa to 53 bits, unless the exponent would leave its range. -/
theorem shiftToTargetExponent_exponent (m : Nat) (e : Int) (accuracy : UnpackedFloat.Accuracy) :
    (UnpackedFloat.shiftToTargetExponent Format.binary64 m e accuracy).2 =
      max e (max (m.log2 + 1 + e - 53) (-1074)) := by
  show e + ((max (m.log2 + 1 + e - 53) (-1074) - e).toNat : Int) = _
  omega

theorem shiftToTargetExponent_mantissa_le (m : Nat) (e : Int) :
    (UnpackedFloat.shiftToTargetExponent Format.binary64 m e .exact).1.mantissa ≤ m :=
  mantissa_shiftRight_le (ExtendedMantissa.ofMantissaAndAccuracy m .exact) _

/-- Rounding moves the exponent by what the mantissa has beyond 53 bits, and by one
bit more where it carries. -/
theorem isFinite_roundWithAccuracy (sign : Sign) {m k : Nat} {e : Int} (hPos : 0 < k)
    (hBits : k ≤ 400) (hMantissa : m < 2 ^ k) (hExponent : e ≤ 0) :
    (pack (UnpackedFloat.roundWithAccuracy Format.binary64 sign m e .exact)).unpack.isFinite =
      true := by
  -- the second shift sees a mantissa that is larger by at most one
  obtain ⟨first, hFirst⟩ : ∃ first,
      UnpackedFloat.shiftToTargetExponent Format.binary64 m e .exact = first := ⟨_, rfl⟩
  obtain ⟨second, hSecond⟩ : ∃ second, UnpackedFloat.shiftToTargetExponent Format.binary64
      first.1.roundedMantissa first.2 .exact = second := ⟨_, rfl⟩
  have hFirstExponent := shiftToTargetExponent_exponent m e .exact
  have hSecondExponent := shiftToTargetExponent_exponent first.1.roundedMantissa first.2 .exact
  have hFirstMantissa := shiftToTargetExponent_mantissa_le m e
  have hRounded := roundedMantissa_le first.1
  rw [hFirst] at hFirstExponent hFirstMantissa
  rw [hSecond] at hSecondExponent
  -- both mantissas are bounded in length, the second by one digit more
  have hLog : m.log2 < k := log2_lt_of_lt_two_pow hPos hMantissa
  have hRoundedLog : first.1.roundedMantissa.log2 < k + 1 := by
    refine log2_lt_of_lt_two_pow (Nat.succ_pos k) ?_
    rw [Nat.pow_succ]
    omega
  by_cases hZero : second.1.mantissa = 0
  · have hResult : UnpackedFloat.roundWithAccuracy Format.binary64 sign m e .exact = .zero sign := by
      subst hFirst hSecond
      exact dif_pos hZero
    rw [hResult]
    exact isFinite_pack_zero sign
  · -- the exponent has grown by less than the length of the mantissa
    have hResult : UnpackedFloat.roundWithAccuracy Format.binary64 sign m e .exact =
        .finite sign second.1.mantissa second.2 (Nat.pos_of_ne_zero hZero) := by
      subst hFirst hSecond
      exact dif_neg hZero
    rw [hResult]
    exact isFinite_pack_finite sign _ (by omega)

theorem isFinite_round (sign : Sign) {n : Nat} (hBound : n < 2 ^ 64) :
    (pack (UnpackedFloat.round Format.binary64 sign n 0)).unpack.isFinite = true := by
  have hTarget : ∀ t : Int, Format.binary64.targetExponent t = max (t - 53) (-1074) := fun _ => rfl
  unfold UnpackedFloat.round UnpackedFloat.decreaseExponent
  dsimp only
  rw [hTarget, totalExponent]
  -- a whole number has at most 52 places to fill in front of the point
  generalize hShift : (0 - max ((n.log2 : Int) + 1 + 0 - 53) (-1074)).toNat = shift
  have hSmall : shift ≤ 52 := by omega
  have hMantissa : n <<< shift < 2 ^ 116 := by
    rw [Nat.shiftLeft_eq]
    calc
      n * 2 ^ shift ≤ n * 2 ^ 52 := Nat.mul_le_mul_left n (Nat.pow_le_pow_right (by omega) hSmall)
      _ < 2 ^ 64 * 2 ^ 52 := Nat.mul_lt_mul_of_pos_right hBound (by decide)
      _ = 2 ^ 116 := by decide
  have hPositive : 0 < 116 := by decide
  exact isFinite_roundWithAccuracy sign hPositive (by decide) hMantissa (by omega)

/-- **A whole number of 64 bits is a finite double.** -/
theorem isFinite_toFloat (n : UInt64) : n.toFloat.isFinite = true := by
  show (pack (UnpackedFloat.normalize Format.binary64 (n.toNat : Int) 0 .positive)).unpack.isFinite =
    true
  unfold UnpackedFloat.normalize
  split
  · -- an unsigned number is not below zero
    next hLess => exact absurd (Int.compare_eq_lt.mp hLess) (by omega)
  · exact isFinite_pack_zero _
  · rw [Int.toNat_natCast]
    exact isFinite_round _ n.toNat_lt

end TypedConfig.Double
