/-!
# Whole numbers of 64 bits

A `Long` is a signed whole number of 64 bits. Arithmetic on it is done on unbounded integers and has
a result only when that result is in range again, so nothing ever wraps.
-/

namespace TypedConfig

/-- A signed whole number of 64 bits. -/
abbrev Long := Int64

namespace Long

/-- The number `n`, if it fits into 64 bits. -/
def ofInt? (n : Int) : Option Long :=
  if -9223372036854775808 ≤ n ∧ n ≤ 9223372036854775807 then some (Int64.ofInt n) else none

/-- The negated number, if it is in range. -/
def neg? (a : Long) : Option Long :=
  ofInt? (-a.toInt)

/-- The sum, if it is in range. -/
def add? (a b : Long) : Option Long :=
  ofInt? (a.toInt + b.toInt)

/-- The difference, if it is in range. -/
def sub? (a b : Long) : Option Long :=
  ofInt? (a.toInt - b.toInt)

/-- The product, if it is in range. -/
def mul? (a b : Long) : Option Long :=
  ofInt? (a.toInt * b.toInt)

/-- The quotient, rounded toward zero. -/
def quotient? (a b : Long) : Option Long :=
  ofInt? (a.toInt.tdiv b.toInt)

/-- The remainder of the division that rounds toward zero; none when the quotient is out of
range. -/
def remainder? (a b : Long) : Option Long :=
  (quotient? a b).bind fun _ => ofInt? (a.toInt.tmod b.toInt)

/-- The decimal digits of `n`, after a minus sign if `n` is negative. -/
def text (n : Long) : String :=
  String.ofList ((if n.toInt < 0 then ['-'] else []) ++ Nat.toDigits 10 n.toInt.natAbs)

/-- The sign in front of a number's text, and what follows it. -/
def splitSign : List Char → Bool × List Char
  | '-' :: cs => (true, cs)
  | '+' :: cs => (false, cs)
  | cs => (false, cs)

/-- Reads an optional sign and ASCII digits; none for any other text and for a number that does not
fit into 64 bits. -/
def ofText? (cs : List Char) : Option Long :=
  let (negative, digits) := splitSign cs
  if digits.isEmpty || !digits.all Char.isDigit then none
  else
    let magnitude : Int := Nat.ofDigitChars 10 digits 0
    ofInt? (if negative then -magnitude else magnitude)

theorem toInt_of_ofInt? {n : Int} {a : Long} (h : ofInt? n = some a) : a.toInt = n := by
  unfold ofInt? at h
  split at h
  · rename_i bounds
    obtain rfl := Option.some.inj h
    exact Int64.toInt_ofInt_of_le (by omega) (by omega)
  · exact absurd h (by simp)

theorem ofInt?_toInt (a : Long) : ofInt? a.toInt = some a := by
  have lower := Int64.le_toInt a
  have upper := Int64.toInt_lt a
  simp only [ofInt?]
  rw [if_pos ⟨by omega, by omega⟩, Int64.ofInt_toInt]

end Long

end TypedConfig
