import Mathlib
import TypedConfig.Number.Binary
import TypedConfig.Proofs.Number.Finite

/-!
# Whole numbers that round to the same double

A double has 53 binary digits. A whole number with more of them is rounded to a
multiple of a power of two, to the nearest one or, halfway between two, to the even
one; so different whole numbers of 64 bits can become the same double. `nearest`
says on integers alone which ones do.

The number is followed through its conversion: the mantissa is filled up to 53 digits
or shifted down to as many, with one bit for the half and one for the rest; a carry
into a 54th digit is shifted out again; and packing the outcome loses nothing. What
comes out is a mantissa of exactly 53 digits, and such a mantissa with its exponent
is determined by the number it stands for.

Main results:

* `shifted_eq` — what a shift to the right keeps, and the two bits it leaves behind.
* `unpack_pack_finite` — packing keeps a mantissa of 53 digits.
* `stands_ofLong` — the double of a whole number stands for `nearest` of it.
* `ofLong_beq_iff` — two of these are equal exactly when `nearest` is the same.
* `nearest_of_le` — up to `2 ^ 53` nothing is rounded.
-/

namespace TypedConfig.Double

open Float.Model
open Float.Model.UnpackedFloat (Sign ExtendedMantissa)

/-! ## Rounding on integers -/

/-- `n / 2 ^ k` rounded to the nearest whole number, halfway to the even one. -/
def roundShift (n k : Nat) : Nat :=
  if 2 ^ k < 2 * (n % 2 ^ k) then n / 2 ^ k + 1
  else if 2 ^ k = 2 * (n % 2 ^ k) then n / 2 ^ k + n / 2 ^ k % 2
  else n / 2 ^ k

/-- The digits of a number that do not fit into 53. -/
def excess (n : Nat) : Nat :=
  n.log2 - 52

/-- The number of 53 binary digits nearest to `n`, and halfway between two the even one. -/
def nearestNat (n : Nat) : Nat :=
  roundShift n (excess n) * 2 ^ excess n

/-- The integer a double nearest to `n` stands for. -/
def nearest (n : Int) : Int :=
  n.sign * nearestNat n.natAbs

/-- Zeros at the end make a number longer. -/
theorem log2_mul_two_pow {n : Nat} (hPos : 0 < n) (k : Nat) :
    (n * 2 ^ k).log2 = n.log2 + k := by
  -- a number lies between two powers of two, and its multiple between their multiples
  have hSelf := Nat.log2_self_le (Nat.ne_of_gt hPos)
  have hNext : n < 2 ^ (n.log2 + 1) := Nat.lt_log2_self
  rw [Nat.log2_eq_iff (Nat.ne_of_gt (Nat.mul_pos hPos (Nat.two_pow_pos k)))]
  constructor
  · rw [Nat.pow_add]
    exact Nat.mul_le_mul_right _ hSelf
  · rw [Nat.add_right_comm, Nat.pow_add]
    exact Nat.mul_lt_mul_of_pos_right hNext (Nat.two_pow_pos k)

/-- Without its excess a number has exactly 53 digits. -/
theorem quotient_excess {n : Nat} (hDigits : 52 ≤ n.log2) :
    2 ^ 52 ≤ n / 2 ^ excess n ∧ n / 2 ^ excess n < 2 ^ 53 := by
  have hLog : n.log2 = 52 + excess n := by
    unfold excess
    omega
  have hNonzero : n ≠ 0 := by
    rintro rfl
    rw [Nat.log2_zero] at hDigits
    omega
  -- both bounds are compared after multiplying with what was cut off
  constructor
  · rw [Nat.le_div_iff_mul_le (Nat.two_pow_pos _), ← Nat.pow_add, ← hLog]
    exact Nat.log2_self_le hNonzero
  · rw [Nat.div_lt_iff_lt_mul (Nat.two_pow_pos _), ← Nat.pow_add,
      show 53 + excess n = n.log2 + 1 by omega]
    exact Nat.lt_log2_self

theorem roundShift_zero (n : Nat) : roundShift n 0 = n := by
  unfold roundShift
  rw [pow_zero, Nat.mod_one, Nat.div_one, if_neg (by omega), if_neg (by omega)]

theorem le_roundShift (n k : Nat) : n / 2 ^ k ≤ roundShift n k := by
  unfold roundShift
  split
  · omega
  · split <;> omega

theorem roundShift_le (n k : Nat) : roundShift n k ≤ n / 2 ^ k + 1 := by
  unfold roundShift
  split
  · omega
  · split <;> omega

theorem nearestNat_of_lt {n : Nat} (h : n < 2 ^ 53) : nearestNat n = n := by
  have hExcess : excess n = 0 := by
    have hLog : n.log2 < 53 := log2_lt_of_lt_two_pow (by decide) h
    unfold excess
    omega
  rw [nearestNat, hExcess, roundShift_zero, pow_zero, Nat.mul_one]

/-- Up to `2 ^ 53` nothing is rounded. -/
theorem nearest_of_le {n : Int} (h : n.natAbs ≤ 2 ^ 53) : nearest n = n := by
  have hNat : nearestNat n.natAbs = n.natAbs := by
    rcases Nat.lt_or_eq_of_le h with hLess | hEq
    · exact nearestNat_of_lt hLess
    · rw [hEq]
      decide
  rw [nearest, hNat, Int.sign_mul_natAbs]

example : nearest 9007199254740993 = 9007199254740992 := by decide

/-! ## Shifting -/

/-- Shifting an exact mantissa to the right leaves the first bit behind and whether any
of the others was set. -/
theorem shifted_eq (n k : Nat) :
    (ExtendedMantissa.mk n false false) >>> (k + 1) =
      ⟨n / 2 ^ (k + 1), n / 2 ^ k % 2 != 0, n % 2 ^ k != 0⟩ := by
  induction k with
  | zero =>
    -- a single bit is shifted out and nothing is left behind it
    show ExtendedMantissa.shiftRightOne ⟨n, false, false⟩ = _
    simp [ExtendedMantissa.shiftRightOne, Nat.mod_one]
  | succ k ih =>
    show ExtendedMantissa.shiftRightOne ((ExtendedMantissa.mk n false false) >>> (k + 1)) = _
    -- the bit that is shifted out now joins the rest
    have hSticky : ((n / 2 ^ k % 2 != 0) || (n % 2 ^ k != 0)) = (n % 2 ^ (k + 1) != 0) := by
      rw [Nat.mod_pow_succ, Bool.eq_iff_iff]
      simp only [Bool.or_eq_true, bne_iff_ne, ne_eq]
      have hPow := Nat.two_pow_pos k
      rcases Nat.mod_two_eq_zero_or_one (n / 2 ^ k) with hBit | hBit
      · rw [hBit]
        omega
      · rw [hBit]
        omega
    have hDiv : n / 2 ^ (k + 1) / 2 = n / 2 ^ (k + 1 + 1) := by
      rw [Nat.div_div_eq_div_mul, ← Nat.pow_succ]
    rw [ih, ExtendedMantissa.shiftRightOne, hSticky, hDiv]

/-- The two bits are enough to round. -/
theorem roundedMantissa_shiftRight (n k : Nat) :
    ((ExtendedMantissa.mk n false false) >>> k).roundedMantissa = roundShift n k := by
  cases k with
  | zero =>
    rw [roundShift_zero]
    rfl
  | succ k =>
    have hPow := Nat.two_pow_pos k
    -- what is cut off is the first bit and the rest
    have hSplit := Nat.mod_pow_succ (x := n) (b := 2) (k := k)
    have hDouble : 2 ^ (k + 1) = 2 * 2 ^ k := by rw [Nat.pow_succ, Nat.mul_comm]
    rw [shifted_eq, roundShift, hSplit, hDouble]
    have hBits := Nat.mod_two_eq_zero_or_one (n / 2 ^ k)
    have hRest := Nat.mod_lt n hPow
    rcases hBits with hBit | hBit
    · -- the first bit is not set: less than half is left behind
      rw [hBit, if_neg (by omega), if_neg (by omega)]
      cases (n % 2 ^ k != 0) <;> rfl
    · -- the first bit is set: half or more, as the rest decides
      rw [hBit]
      by_cases hZero : n % 2 ^ k = 0
      · rw [hZero, if_neg (by omega), if_pos (by omega)]
        rfl
      · rw [if_pos (by omega), show (n % 2 ^ k != 0) = true from bne_iff_ne.mpr hZero]
        rfl

/-! ## Rounding a mantissa -/

/-- A shift to the exponent at which the mantissa has 53 digits. -/
theorem shiftToTargetExponent_eq {m : Nat} {e : Int} (hExponent : -1074 ≤ m.log2 + e - 52) :
    UnpackedFloat.shiftToTargetExponent Format.binary64 m e .exact =
      ((ExtendedMantissa.mk m false false) >>> (m.log2 + e - 52 - e).toNat,
        e + ((m.log2 + e - 52 - e).toNat : Int)) := by
  -- the exponent does not fall below the smallest one
  have hTarget : Format.binary64.targetExponent (totalExponent m e) = m.log2 + e - 52 := by
    show max ((m.log2 : Int) + 1 + e - 53) (-1074) = _
    omega
  show UnpackedFloat.shiftToExponent m e .exact _ = _
  rw [hTarget]
  rfl

/-- A whole number with a sign. -/
def signed : Sign → Nat → Int
  | .positive, n => n
  | .negative, n => -n

/-- The number has a mantissa of exactly 53 digits and stands for an integer, or is zero. -/
inductive Stands : UnpackedFloat → Int → Prop
  | zero : Stands (.zero .positive) 0
  | finite (sign : Sign) {m n : Nat} {e : Int} (hPos : 0 < m) :
      2 ^ 52 ≤ m → m < 2 ^ 53 → -52 ≤ e → e ≤ 971 → m * 2 ^ (e + 52).toNat = n * 2 ^ 52 →
      Stands (.finite sign m e hPos) (signed sign n)

/-- The two shifts of a rounding, with the mantissa rounded in between. -/
theorem roundWithAccuracy_eq (sign : Sign) {m q r : Nat} {e d : Int} (hPos : 0 < r)
    (hDigits : 52 ≤ m.log2) (hExponent : -1074 ≤ e) (hRounded : roundShift m (excess m) = q)
    (hSecond : UnpackedFloat.shiftToTargetExponent Format.binary64 q (e + excess m) .exact =
      (⟨r, false, false⟩, d)) :
    UnpackedFloat.roundWithAccuracy Format.binary64 sign m e .exact = .finite sign r d hPos := by
  -- the first shift is by the excess
  have hExcess : (m.log2 + e - 52 - e).toNat = excess m := by
    unfold excess
    omega
  have hFirst : UnpackedFloat.shiftToTargetExponent Format.binary64 m e .exact =
      ((ExtendedMantissa.mk m false false) >>> excess m, e + (excess m : Int)) := by
    rw [shiftToTargetExponent_eq (by omega), hExcess]
  unfold UnpackedFloat.roundWithAccuracy
  rw [hFirst]
  dsimp only
  rw [roundedMantissa_shiftRight, hRounded, hSecond]
  exact dif_neg (Nat.ne_of_gt hPos)

/-- Rounding a mantissa of at least 53 digits takes it to exactly 53, a carry included. -/
theorem stands_roundWithAccuracy (sign : Sign) {m n : Nat} {e : Int} (hDigits : 52 ≤ m.log2)
    (hLower : -52 ≤ e) (hUpper : m.log2 + e ≤ 1000)
    (hValue : roundShift m (excess m) * 2 ^ (e + excess m + 52).toNat = n * 2 ^ 52) :
    Stands (UnpackedFloat.roundWithAccuracy Format.binary64 sign m e .exact) (signed sign n) := by
  have hLog : m.log2 = 52 + excess m := by
    unfold excess
    omega
  -- a quotient of 53 digits is rounded to one of 53 or to the next power of two
  obtain ⟨hQuotientLower, hQuotientUpper⟩ := quotient_excess hDigits
  have hLowerRounded := le_roundShift m (excess m)
  have hUpperRounded := roundShift_le m (excess m)
  generalize hRounded : roundShift m (excess m) = q at hValue hLowerRounded hUpperRounded
  rcases Nat.lt_or_ge q (2 ^ 53) with hSmall | hCarry
  · -- without a carry the second shift does nothing
    have hLogRounded : q.log2 = 52 := (Nat.log2_eq_iff (by omega)).mpr ⟨by omega, hSmall⟩
    have hSecond : UnpackedFloat.shiftToTargetExponent Format.binary64 q (e + excess m) .exact =
        (⟨q, false, false⟩, e + (excess m : Int)) := by
      rw [shiftToTargetExponent_eq (by omega), hLogRounded,
        show ((52 : Nat) + (e + (excess m : Int)) - 52 - (e + excess m)).toNat = 0 by omega]
      simp only [Nat.cast_zero, Int.add_zero]
      rfl
    rw [roundWithAccuracy_eq sign (by omega) hDigits (by omega) hRounded hSecond]
    exact .finite sign _ (by omega) hSmall (by omega) (by omega) hValue
  · -- a carry leaves a power of two, whose last digit is shifted out
    obtain rfl : q = 2 ^ 53 := by omega
    have hSecond : UnpackedFloat.shiftToTargetExponent Format.binary64 (2 ^ 53)
        (e + (excess m : Int)) .exact = (⟨2 ^ 52, false, false⟩, e + (excess m : Int) + 1) := by
      rw [shiftToTargetExponent_eq (by rw [Nat.log2_two_pow]; omega), Nat.log2_two_pow,
        show ((53 : Nat) + (e + (excess m : Int)) - 52 - (e + excess m)).toNat = 1 by omega]
      rfl
    have hSame : 2 ^ 52 * 2 ^ (e + excess m + 1 + 52).toNat = n * 2 ^ 52 := by
      rw [← hValue, show (e + excess m + 1 + 52).toNat = (e + excess m + 52).toNat + 1 by omega,
        Nat.pow_succ]
      ring
    rw [roundWithAccuracy_eq sign (by decide) hDigits (by omega) hRounded hSecond]
    exact .finite sign _ (by decide) (by decide) (by omega) (by omega) hSame

/-- Below 53 digits the mantissa is filled up with zeros first, which changes nothing. -/
theorem stands_round (sign : Sign) {n : Nat} (hPos : 0 < n) (hBound : n < 2 ^ 64) :
    Stands (UnpackedFloat.round Format.binary64 sign n 0) (signed sign (nearestNat n)) := by
  -- a number of 64 bits stays far away from the smallest exponent
  have hLog : n.log2 < 64 := log2_lt_of_lt_two_pow (by decide) hBound
  have hTarget : Format.binary64.targetExponent (totalExponent n 0) = (n.log2 : Int) - 52 := by
    show max ((n.log2 : Int) + 1 + 0 - 53) (-1074) = _
    omega
  have hRound : UnpackedFloat.round Format.binary64 sign n 0 =
      UnpackedFloat.roundWithAccuracy Format.binary64 sign (n <<< (52 - n.log2))
        (-((52 - n.log2 : Nat) : Int)) .exact := by
    have hShift : (0 - ((n.log2 : Int) - 52)).toNat = 52 - n.log2 := by omega
    unfold UnpackedFloat.round UnpackedFloat.decreaseExponent
    dsimp only
    rw [hTarget, hShift, Int.zero_sub]
  rw [hRound, Nat.shiftLeft_eq]
  -- behind the digits stand as many zeros as are missing
  generalize hFill : 52 - n.log2 = fill
  have hLogFilled : (n * 2 ^ fill).log2 = n.log2 + fill := log2_mul_two_pow hPos fill
  have hExcessFilled : excess (n * 2 ^ fill) = excess n := by
    unfold excess
    omega
  refine stands_roundWithAccuracy sign (by omega) (by omega) (by omega) ?_
  rw [hExcessFilled, nearestNat]
  rcases Nat.eq_zero_or_pos fill with hNone | hSome
  · -- nothing to fill up
    rw [hNone, pow_zero, Nat.mul_one,
      show (-((0 : Nat) : Int) + (excess n : Int) + 52).toNat = excess n + 52 by omega, Nat.pow_add,
      Nat.mul_assoc]
  · -- a mantissa that was filled up has no excess
    have hExcess : excess n = 0 := by
      unfold excess
      omega
    rw [hExcess, roundShift_zero, roundShift_zero, pow_zero, Nat.mul_one, Nat.mul_assoc,
      ← Nat.pow_add, show fill + (-(fill : Int) + ((0 : Nat) : Int) + 52).toNat = 52 by omega]

/-! ## Packing -/

/-- A mantissa of 53 digits is stored with an offset added to its exponent. -/
theorem pack_finite_eq (sign : Sign) {m : Nat} {e : Int} (hPos : 0 < m) (hLog : m.log2 = 52)
    (hExponent : e ≤ 971) :
    UnpackedFloat.pack Format.binary64 (.finite sign m e hPos) =
      UnpackedFloat.packComponents Format.binary64 sign (BitVec.ofNat _ (e + 1023 + 52).toNat)
        (BitVec.ofNat _ m) := by
  have hUnfold : UnpackedFloat.pack Format.binary64 (.finite sign m e hPos) =
      if 2 ^ 11 ≤ (e + 1023 + 52).toNat + 1 then UnpackedFloat.packedInfinity _ sign
      else if m.log2 + 1 = 53 then
        UnpackedFloat.packComponents _ sign (BitVec.ofNat _ (e + 1023 + 52).toNat)
          (BitVec.ofNat _ m)
      else UnpackedFloat.packComponents _ sign 0#_ (BitVec.ofNat _ m) := rfl
  -- neither large enough for infinity nor short enough for the exponent zero
  rw [hUnfold, if_neg (by omega), if_pos (by omega)]

/-- The leading digit of a mantissa is left out and put back. -/
theorem toNat_leading_append {m : Nat} (hLower : 2 ^ 52 ≤ m) (hUpper : m < 2 ^ 53) :
    (1#1 ++ BitVec.ofNat 52 m).toNat = m := by
  -- the leading digit is the only one that is cut off
  have hRest : (BitVec.ofNat 52 m).toNat = m - 2 ^ 52 := by
    rw [BitVec.toNat_ofNat]
    omega
  have hSmall : m - 2 ^ 52 < 2 ^ 52 := by omega
  rw [BitVec.toNat_append, hRest, ← Nat.shiftLeft_add_eq_or_of_lt hSmall, Nat.shiftLeft_eq,
    BitVec.toNat_ofNat]
  omega

/-- Neither of the two exponents with a meaning of their own. -/
theorem unpack_packComponents (sign : Sign) {m biased : Nat} (hPos : 0 < m)
    (hLower : 2 ^ 52 ≤ m) (hUpper : m < 2 ^ 53) (hSome : 0 < biased) (hSmall : biased < 2047) :
    UnpackedFloat.unpack Format.binary64 (UnpackedFloat.packComponents Format.binary64 sign
      (BitVec.ofNat _ biased) (BitVec.ofNat _ m)) = .finite sign m ((biased : Int) - 1075) hPos := by
  have hExponent : (BitVec.ofNat Format.binary64.exponentBits biased).toNat = biased := by
    rw [BitVec.toNat_ofNat]
    show biased % 2048 = biased
    omega
  -- the exponent is not that of infinity
  have hOnes : BitVec.ofNat Format.binary64.exponentBits biased ≠ -1#_ := by
    intro hEq
    have hMax : (-1#_ : BitVec Format.binary64.exponentBits).toNat = 2047 := by decide
    rw [hEq, hMax] at hExponent
    omega
  -- nor that of zero
  have hZeros : BitVec.ofNat Format.binary64.exponentBits biased ≠ 0#_ := by
    intro hEq
    have hMin : (0#_ : BitVec Format.binary64.exponentBits).toNat = 0 := by decide
    rw [hEq, hMin] at hExponent
    omega
  have hMantissa := toNat_leading_append hLower hUpper
  simp only [UnpackedFloat.unpack, UnpackedFloat.unpackExponent_packComponents,
    UnpackedFloat.unpackMantissa_packComponents, UnpackedFloat.unpackSign_packComponents,
    UnpackedFloat.Sign.ofBitVec_toBitVec, if_neg hOnes, if_neg hZeros, hExponent]
  rw [UnpackedFloat.finite.injEq]
  exact ⟨rfl, hMantissa, rfl⟩

/-- Packing keeps a mantissa of 53 digits, its exponent and its sign. -/
theorem unpack_pack_finite (sign : Sign) {m : Nat} {e : Int} (hPos : 0 < m)
    (hLower : 2 ^ 52 ≤ m) (hUpper : m < 2 ^ 53) (hExponentLower : -52 ≤ e)
    (hExponentUpper : e ≤ 971) :
    (pack (.finite sign m e hPos)).unpack = .finite sign m e hPos := by
  have hLog : m.log2 = 52 := (Nat.log2_eq_iff (Nat.ne_of_gt hPos)).mpr ⟨hLower, hUpper⟩
  show UnpackedFloat.unpack Format.binary64
    (UnpackedFloat.pack Format.binary64 (.finite sign m e hPos)) = _
  rw [pack_finite_eq sign hPos hLog hExponentUpper,
    unpack_packComponents sign hPos hLower hUpper (by omega) (by omega),
    UnpackedFloat.finite.injEq]
  exact ⟨rfl, rfl, by omega⟩

theorem Stands.unpack_pack {f : UnpackedFloat} {n : Int} (h : Stands f n) :
    (pack f).unpack = f := by
  cases h with
  | zero => exact UnpackedFloat.unpack_packedZero
  | finite sign hPos hLower hUpper hExponentLower hExponentUpper _ =>
    exact unpack_pack_finite sign hPos hLower hUpper hExponentLower hExponentUpper

/-! ## The double of a whole number -/

/-- A number that is not zero changes its sign without being rounded again. -/
theorem Stands.neg {f : UnpackedFloat} {n : Int} (h : Stands f n) (hNonzero : n ≠ 0) :
    Stands f.neg (-n) := by
  cases h with
  | zero => exact absurd rfl hNonzero
  | finite sign hPos hLower hUpper hExponentLower hExponentUpper hValue =>
    -- a sign in front turns the sign around
    have hOpposite : ∀ k, -signed sign k = signed (-sign) k := by
      intro k
      cases sign
      · exact Int.neg_neg _
      · rfl
    rw [hOpposite]
    exact .finite (-sign) hPos hLower hUpper hExponentLower hExponentUpper hValue

theorem stands_toFloat {n : Nat} (hBound : n < 2 ^ 64) :
    Stands n.toUInt64.toFloat.toModel.unpack (nearestNat n) := by
  have hSame : n.toUInt64.toNat = n := by
    rw [Nat.toUInt64_eq, UInt64.toNat_ofNat_of_lt' hBound]
  show Stands (pack (UnpackedFloat.normalize Format.binary64 (n.toUInt64.toNat : Int) 0
    .positive)).unpack _
  rw [hSame]
  have hStands : Stands (UnpackedFloat.normalize Format.binary64 (n : Int) 0 .positive)
      (nearestNat n) := by
    unfold UnpackedFloat.normalize
    -- the comparison with zero has three outcomes, and the first is excluded
    split
    · next hLess => exact absurd (Int.compare_eq_lt.mp hLess) (by omega)
    · next hEq =>
      obtain rfl : n = 0 := by
        have hZero := Int.compare_eq_eq.mp hEq
        omega
      exact .zero
    · next hGreater =>
      have hPos := Int.compare_eq_gt.mp hGreater
      rw [Int.toNat_natCast]
      exact stands_round .positive (by omega) hBound
  -- packing and unpacking loses nothing of it
  rw [hStands.unpack_pack]
  exact hStands

theorem nearestNat_pos {n : Nat} (hPos : 0 < n) : 0 < nearestNat n := by
  have hFloor : 2 ^ excess n ≤ n := by
    have hSelf := Nat.log2_self_le (Nat.ne_of_gt hPos)
    have hLess : excess n ≤ n.log2 := Nat.sub_le _ _
    exact Nat.le_trans (Nat.pow_le_pow_right (by decide) hLess) hSelf
  have hQuotient : 0 < n / 2 ^ excess n := Nat.div_pos hFloor (Nat.two_pow_pos _)
  exact Nat.mul_pos (Nat.lt_of_lt_of_le hQuotient (le_roundShift n _)) (Nat.two_pow_pos _)

/-- **The double of a whole number stands for the nearest one of 53 digits.** -/
theorem stands_ofLong (n : Long) : Stands (ofLong n).toModel.unpack (nearest n.toInt) := by
  have hRange : n.toInt.natAbs < 2 ^ 64 := by
    have hLower := n.le_toInt
    have hUpper := n.toInt_lt
    omega
  have hMagnitude := stands_toFloat hRange
  unfold ofLong nearest
  rcases Int.lt_or_le n.toInt 0 with hNegative | hPositive
  · -- the sign is put in front of the magnitude
    have hNonzero : (nearestNat n.toInt.natAbs : Int) ≠ 0 := by
      have hSome := nearestNat_pos (n := n.toInt.natAbs) (by omega)
      omega
    have hNeg := hMagnitude.neg hNonzero
    rw [if_pos hNegative, Int.sign_eq_neg_one_of_neg hNegative, Int.neg_one_mul]
    show Stands (pack _).unpack _
    rw [hNeg.unpack_pack]
    exact hNeg
  · -- from zero on the magnitude is the number
    rw [if_neg (by omega)]
    rcases Int.lt_or_eq_of_le hPositive with hPos | hZero
    · rw [Int.sign_eq_one_of_pos hPos, Int.one_mul]
      exact hMagnitude
    · rw [← hZero] at hMagnitude ⊢
      exact hMagnitude

/-! ## Equality -/

/-- A mantissa of 53 digits and its exponent are determined by the number. -/
theorem mantissa_unique {m m' n : Nat} {e e' : Int} (hLower : 2 ^ 52 ≤ m) (hUpper : m < 2 ^ 53)
    (hLower' : 2 ^ 52 ≤ m') (hUpper' : m' < 2 ^ 53) (hExponent : -52 ≤ e) (hExponent' : -52 ≤ e')
    (hValue : m * 2 ^ (e + 52).toNat = n * 2 ^ 52)
    (hValue' : m' * 2 ^ (e' + 52).toNat = n * 2 ^ 52) : m = m' ∧ e = e' := by
  -- the exponent is the length of the number, less the 53 digits
  have hLength : ∀ {k : Nat} {d : Int}, 2 ^ 52 ≤ k → k < 2 ^ 53 →
      (k * 2 ^ (d + 52).toNat).log2 = 52 + (d + 52).toNat := by
    intro k d hSome hFits
    rw [log2_mul_two_pow (by omega), (Nat.log2_eq_iff (by omega)).mpr ⟨hSome, hFits⟩]
  have hSame : (e + 52).toNat = (e' + 52).toNat := by
    have hLeft := hLength (d := e) hLower hUpper
    have hRight := hLength (d := e') hLower' hUpper'
    rw [hValue] at hLeft
    rw [hValue'] at hRight
    omega
  -- with the same exponent the mantissas are the same as well
  rw [← hSame, ← hValue] at hValue'
  exact ⟨(Nat.mul_right_cancel (Nat.two_pow_pos _) hValue').symm, by omega⟩

theorem signed_inj {sign sign' : Sign} {n n' : Nat} (hPos : 0 < n) (hPos' : 0 < n')
    (h : signed sign n = signed sign' n') : sign = sign' ∧ n = n' := by
  cases sign <;> cases sign' <;> simp only [signed] at h
  · exact ⟨rfl, by omega⟩
  · omega
  · omega
  · exact ⟨rfl, by omega⟩

theorem signed_ne_zero {sign : Sign} {n : Nat} (hPos : 0 < n) : signed sign n ≠ 0 := by
  intro hZero
  cases sign <;> simp only [signed] at hZero <;> omega

/-- A mantissa that is not zero does not stand for zero. -/
theorem pos_of_value {m n k : Nat} (hPos : 0 < m) (hValue : m * 2 ^ k = n * 2 ^ 52) : 0 < n := by
  have hProduct : 0 < n * 2 ^ 52 := by
    rw [← hValue]
    exact Nat.mul_pos hPos (Nat.two_pow_pos k)
  exact Nat.pos_of_mul_pos_right hProduct

theorem Stands.eq_iff {f g : UnpackedFloat} {a b : Int} (hLeft : Stands f a)
    (hRight : Stands g b) : f = g ↔ a = b := by
  cases hLeft with
  | zero =>
    cases hRight with
    | zero => exact iff_of_true rfl rfl
    | finite sign hPos _ _ _ _ hValue =>
      exact iff_of_false nofun (signed_ne_zero (pos_of_value hPos hValue)).symm
  | finite sign hPos hLower hUpper hExponent _ hValue =>
    cases hRight with
    | zero => exact iff_of_false nofun (signed_ne_zero (pos_of_value hPos hValue))
    | finite sign' hPos' hLower' hUpper' hExponent' _ hValue' =>
      rw [UnpackedFloat.finite.injEq]
      constructor
      · -- equal parts have equal values
        rintro ⟨rfl, rfl, rfl⟩
        have hSame := Nat.mul_right_cancel (Nat.two_pow_pos 52) (hValue.symm.trans hValue')
        rw [hSame]
      · -- the value has one sign, one mantissa and one exponent
        intro hSigned
        obtain ⟨hSign, rfl⟩ :=
          signed_inj (pos_of_value hPos hValue) (pos_of_value hPos' hValue') hSigned
        exact ⟨hSign, mantissa_unique hLower hUpper hLower' hUpper' hExponent hExponent' hValue
          hValue'⟩

/-- The equality of doubles has exceptions for what is no number and for zeros of
different signs, and none of them stands for an integer here. -/
theorem Stands.beq_iff {f g : UnpackedFloat} {a b : Int} (hLeft : Stands f a)
    (hRight : Stands g b) : f.beq g = true ↔ a = b := by
  have hNumber : ∀ {h : UnpackedFloat} {c : Int}, Stands h c → h ≠ .notANumber := by
    rintro _ _ (_ | _) <;> nofun
  have hZero : ∀ {h : UnpackedFloat} {c : Int}, Stands h c → h ≠ .zero .negative := by
    rintro _ _ (_ | _) <;> nofun
  rw [UnpackedFloat.beq_iff_ne_notANumber_and_eq, ← hLeft.eq_iff hRight]
  constructor
  · rintro ⟨_, _, hEq | ⟨_, hNegative⟩ | ⟨hNegative, _⟩⟩
    · exact hEq
    · exact absurd hNegative (hZero hRight)
    · exact absurd hNegative (hZero hLeft)
  · intro hEq
    exact ⟨hNumber hLeft, hNumber hRight, Or.inl hEq⟩

/-- **Two whole numbers become equal doubles exactly when they are rounded alike.** -/
theorem ofLong_beq_iff (a b : Long) :
    (ofLong a == ofLong b) = true ↔ nearest a.toInt = nearest b.toInt :=
  (stands_ofLong a).beq_iff (stands_ofLong b)

end TypedConfig.Double
