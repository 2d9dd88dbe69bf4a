import TypedConfig.Number.Shortest
import TypedConfig.Text

/-!
# Decimal texts

Floating point numbers are written with their shortest digits, in one of two layouts: plain, which
is always positional and leaves whole numbers without a point, and detailed, which marks whole
numbers with `.0` and uses an exponent for very large and very small numbers. Decimal texts are read
with correct rounding.
-/

namespace TypedConfig

/-- How digits are laid out: what follows a whole number, and which positions of the point are
written without an exponent. -/
structure Layout where
  wholeSuffix : List Char
  positional : Int → Bool

namespace Layout

/-- Always positional, and nothing after a whole number. -/
def plain : Layout :=
  ⟨[], fun _ => true⟩

/-- Positional from `0.0001` to below `10 ^ 16`, with a fraction after every whole number. -/
def detailed : Layout :=
  ⟨['.', '0'], fun point => -4 < point && point ≤ 16⟩

/-- The digits with a point among them, zeros filling the places between. -/
def positionalChars (layout : Layout) (d : Digits) : List Char :=
  if d.point ≤ 0 then ['0', '.'] ++ List.replicate (-d.point).toNat '0' ++ d.digits
  else
    let whole := d.point.toNat
    if d.digits.length ≤ whole then
      d.digits ++ List.replicate (whole - d.digits.length) '0' ++ layout.wholeSuffix
    else d.digits.take whole ++ '.' :: d.digits.drop whole

/-- The first digit, the others after a point, and the exponent of the first digit. -/
def exponentialChars (d : Digits) : List Char :=
  let fraction := d.digits.drop 1
  let exponent := d.point - 1
  d.digits.take 1 ++ (if fraction.isEmpty then [] else '.' :: fraction) ++ ['e'] ++
    (if exponent < 0 then ['-'] else []) ++ Nat.toDigits 10 exponent.natAbs

/-- The text of a number. -/
def text (layout : Layout) (format : BinaryFormat) : Binary → String
  | .nan => "NaN"
  | .infinity negative => if negative then "-inf" else "inf"
  | .finite negative m e =>
    let magnitude :=
      if m = 0 then '0' :: layout.wholeSuffix
      else
        let d := Digits.shortest format m e
        if layout.positional d.point then layout.positionalChars d else exponentialChars d
    String.ofList (if negative then '-' :: magnitude else magnitude)

end Layout

/-- The plain text of a double. -/
def Double.text (x : Float) : String :=
  Layout.plain.text .double (.ofDouble x)

/-- The detailed text of a double. -/
def Double.detailed (x : Float) : String :=
  Layout.detailed.text .double (.ofDouble x)

/-- The plain text of a single. -/
def Single.text (x : Float32) : String :=
  Layout.plain.text .single (.ofSingle x)

/-- The parts of a decimal text: a sign, digits before and after the point, and the sign and digits
of the exponent, if there is one. -/
structure Decimal where
  negative : Bool
  whole : List Char
  fraction : List Char
  exponent : Option (Bool × List Char)

namespace Decimal

/-- Splits off the exponent at the end of a number: `e` or `E`, an optional sign, and digits. -/
def scanExponent? (isDigit : Char → Bool) : List Char → Option (Option (Bool × List Char))
  | [] => some none
  | c :: cs =>
    let (negative, digits) := Long.splitSign cs
    if (c == 'e' || c == 'E') && !digits.isEmpty && digits.all isDigit then
      some (some (negative, digits))
    else none

/-- Takes a whole text apart: an optional sign, digits with at most one point among them or at
either end, and an optional exponent. -/
def scan? (isDigit : Char → Bool) (cs : List Char) : Option Decimal :=
  let (negative, cs) := Long.splitSign cs
  let whole := cs.takeWhile isDigit
  let rest := cs.dropWhile isDigit
  let (fraction, rest) :=
    match rest with
    | '.' :: cs => (cs.takeWhile isDigit, cs.dropWhile isDigit)
    | cs => ([], cs)
  if whole.isEmpty && fraction.isEmpty then none
  else (scanExponent? isDigit rest).map fun exponent => ⟨negative, whole, fraction, exponent⟩

/-- The double nearest to the decimal, an exact tie going to the even one. -/
def toDouble (d : Decimal) : Float :=
  let written : Int :=
    match d.exponent with
    | none => 0
    | some (negative, digits) =>
      let magnitude : Int := Nat.ofDigitChars 10 digits 0
      if negative then -magnitude else magnitude
  -- every place behind the point takes one off the exponent
  let power := written - d.fraction.length
  let digits := Nat.ofDigitChars 10 (d.whole ++ d.fraction) 0
  let x := Float.ofScientific digits (power < 0) power.natAbs
  if d.negative then -x else x

end Decimal

/-- Reads a decimal text with ASCII digits. -/
def Double.ofText? (cs : List Char) : Option Float :=
  (Decimal.scan? Char.isDigit cs).map Decimal.toDouble

end TypedConfig
