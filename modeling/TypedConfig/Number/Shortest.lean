import TypedConfig.Number.Binary

/-!
# Shortest decimal digits

The numbers that round to a given binary floating point number fill an interval, whose ends belong
to it when the mantissa is even. The decimal written for the number is the shortest one inside the
interval, and of equally short ones the nearest; an exact tie goes to the larger. Everything is
computed with whole numbers.
-/

namespace TypedConfig

/-- The positive number `0.d₁d₂… * 10 ^ point` with the digits `d₁d₂…`. -/
structure Digits where
  digits : List Char
  point : Int

namespace Digits

/-- A positive number and the ends of the interval that rounds to it, over one denominator. -/
structure Interval where
  low : Nat
  value : Nat
  high : Nat
  denominator : Nat
  closed : Bool

/-- The interval of the numbers that round to `m * 2 ^ e`. The neighbour below a power of two is
only half as far away as the one above. -/
def Interval.around (format : BinaryFormat) (m : Nat) (e : Int) : Interval :=
  let narrow := m = Nat.pow 2 format.fractionBits ∧ e ≠ format.leastExponent
  -- in units of a quarter step both ends are whole numbers
  let scale := Nat.pow 2 (e - 2).toNat
  { low := (if narrow then 4 * m - 1 else 4 * m - 2) * scale
    value := 4 * m * scale
    high := (4 * m + 2) * scale
    denominator := Nat.pow 2 (2 - e).toNat
    closed := m % 2 = 0 }

/-- Raises `point` until the number `n / d` is less than `10 ^ point`, at most `fuel` times. -/
def pointFrom (n d : Nat) (point : Int) : Nat → Int
  | 0 => point
  | fuel + 1 =>
    if n * Nat.pow 10 (-point).toNat < d * Nat.pow 10 point.toNat then point
    else pointFrom n d (point + 1) fuel

/-- The number `point` with `10 ^ (point - 1) ≤ n / d < 10 ^ point`. The search starts from an
estimate by binary logarithms that is never too large. -/
def pointOf (n d : Nat) : Int :=
  pointFrom n d (((n.log2 : Int) - d.log2 - 1) * 1233 / 4096 - 1) 6

/-- The grid point with `count` digits next to the number, if one lies in its interval. -/
def onGrid? (i : Interval) (point : Int) (count : Nat) : Option Nat :=
  let up := Nat.pow 10 (count - point).toNat
  let down := i.denominator * Nat.pow 10 (point - count).toNat
  let below := i.value * up / down
  let above := below + 1
  let reaches (a b : Nat) : Bool := a < b || (i.closed && a == b)
  let belowFits := reaches (i.low * up) (below * down)
  let aboveFits := reaches (above * down) (i.high * up)
  -- of two points in the interval the nearer one, a tie upward
  if belowFits && aboveFits then
    some (if 2 * (i.value * up - below * down) < down then below else above)
  else if belowFits then some below
  else if aboveFits then some above
  else none

/-- The first grid with a point in the interval, from `count` digits on. -/
def search (i : Interval) (point : Int) (count : Nat) : Nat → Nat × Nat
  | 0 => (i.value, count)
  | fuel + 1 =>
    match onGrid? i point count with
    | some n => (n, count)
    | none => search i point (count + 1) fuel

/-- The shortest digits that read back as `m * 2 ^ e`, for a positive `m`. -/
def shortest (format : BinaryFormat) (m : Nat) (e : Int) : Digits :=
  let i := Interval.around format m e
  let point := pointOf i.value i.denominator
  -- seventeen digits tell any two doubles apart
  let (n, count) := search i point 1 17
  let digits := Nat.toDigits 10 n
  -- the point above a run of nines has one digit more than its grid
  { digits := (digits.reverse.dropWhile (· == '0')).reverse
    point := point + (digits.length - count) }

end Digits

end TypedConfig
