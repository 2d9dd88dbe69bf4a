import TypedConfig.Number.Long

/-!
# Binary floating point, taken apart

A finite floating point number is a sign and a product `m * 2 ^ e` of whole numbers. This module
takes numbers of 64 and of 32 bits apart into such products, puts a product back together with
correct rounding, and defines on the products what needs exact arithmetic: truncation, the remainder
of a division, and the conversions between whole numbers, doubles and singles.
-/

namespace TypedConfig

/-- A binary format: how many bits its fraction and its exponent take. -/
structure BinaryFormat where
  fractionBits : Nat
  exponentBits : Nat

namespace BinaryFormat

/-- The format of 64 bits. -/
def double : BinaryFormat := ⟨52, 11⟩

/-- The format of 32 bits. -/
def single : BinaryFormat := ⟨23, 8⟩

/-- The exponent of the smallest positive number, whose mantissa is one. -/
def leastExponent (format : BinaryFormat) : Int :=
  2 - (Nat.pow 2 (format.exponentBits - 1) : Nat) - format.fractionBits

end BinaryFormat

/-- What a floating point number stands for: a finite one for `± mantissa * 2 ^ exponent`. -/
inductive Binary where
  | nan
  | infinity (negative : Bool)
  | finite (negative : Bool) (mantissa : Nat) (exponent : Int)

namespace Binary

/-- Reads sign, exponent and fraction off the bits of a number. -/
def ofBits (format : BinaryFormat) (bits : Nat) : Binary :=
  let fraction := bits % Nat.pow 2 format.fractionBits
  let exponent := bits / Nat.pow 2 format.fractionBits % Nat.pow 2 format.exponentBits
  let negative := bits / Nat.pow 2 (format.fractionBits + format.exponentBits) % 2 == 1
  -- the largest exponent is kept for what is not finite, and the smallest has no leading one
  if exponent + 1 = Nat.pow 2 format.exponentBits then
    if fraction = 0 then infinity negative else nan
  else if exponent = 0 then finite negative fraction format.leastExponent
  else
    finite negative (Nat.pow 2 format.fractionBits + fraction) (format.leastExponent + exponent - 1)

/-- A number of 64 bits, taken apart. -/
def ofDouble (x : Float) : Binary :=
  ofBits .double x.toBits.toNat

/-- A number of 32 bits, taken apart. -/
def ofSingle (x : Float32) : Binary :=
  ofBits .single x.toBits.toNat

/-- The product `m * 2 ^ e` as a decimal: digits, whether the power of ten divides, and its
exponent. -/
def toScientific (m : Nat) (e : Int) : Nat × Bool × Nat :=
  if 0 ≤ e then (m * Nat.pow 2 e.toNat, false, 0)
  else (m * Nat.pow 5 (-e).toNat, true, (-e).toNat)

/-- The double nearest to the number, an exact tie going to the even one. -/
def toDouble : Binary → Float
  | nan => .ofBits 0x7FF8000000000000
  | infinity negative => .ofBits (if negative then 0xFFF0000000000000 else 0x7FF0000000000000)
  | finite negative m e =>
    let (digits, divides, power) := toScientific m e
    let x := Float.ofScientific digits divides power
    if negative then -x else x

/-- The single nearest to the number, an exact tie going to the even one. -/
def toSingle : Binary → Float32
  | nan => .ofBits 0x7FC00000
  | infinity negative => .ofBits (if negative then 0xFF800000 else 0x7F800000)
  | finite negative m e =>
    let (digits, divides, power) := toScientific m e
    let x := Float32.ofScientific digits divides power
    if negative then -x else x

/-- The whole number next to a finite number on the side of zero. -/
def truncate? : Binary → Option Int
  | finite negative m e =>
    let magnitude : Nat := if 0 ≤ e then m * Nat.pow 2 e.toNat else m / Nat.pow 2 (-e).toNat
    some (if negative then -magnitude else magnitude)
  | _ => none

/-- What the division that rounds toward zero leaves of `x`; it is exact and keeps the sign of
`x`. -/
def remainder : Binary → Binary → Binary
  | finite negative m e, finite _ m' e' =>
    if m' = 0 then nan
    else
      -- over the smaller exponent both mantissas are whole
      let least := min e e'
      finite negative
        ((m * Nat.pow 2 (e - least).toNat) % (m' * Nat.pow 2 (e' - least).toNat)) least
  | finite negative m e, infinity _ => finite negative m e
  | _, _ => nan

end Binary

namespace Double

/-- The double nearest to a whole number, an exact tie going to the even one. -/
def ofLong (n : Long) : Float :=
  if n.toInt < 0 then -n.toInt.natAbs.toUInt64.toFloat else n.toInt.natAbs.toUInt64.toFloat

/-- The whole part of a number, if it is finite and its whole part fits into 64 bits. -/
def toLong? (x : Float) : Option Long :=
  (Binary.ofDouble x).truncate?.bind Long.ofInt?

/-- The remainder of the division that rounds toward zero. -/
def remainder (x y : Float) : Float :=
  ((Binary.ofDouble x).remainder (Binary.ofDouble y)).toDouble

/-- The largest finite single, as a double. -/
def largestSingle : Float :=
  .ofBits 0x47EFFFFFE0000000

/-- The nearest single; none for a finite number beyond the largest finite single. -/
def toSingle? (x : Float) : Option Float32 :=
  if x.isFinite && largestSingle < x.abs then none else some (Binary.ofDouble x).toSingle

end Double

end TypedConfig
