import Mathlib.Data.List.Induction
import Mathlib.Data.Nat.Digits.Defs
import TypedConfig.Proofs.Expression.Arithmetic
import TypedConfig.Proofs.Expression.Numeral
import TypedConfig.Scalar.Coercion

/-!
# Texts of whole numbers

A text of a sign and ASCII digits denotes an integer of any size, with as many zeros in
front as one likes. Read as a whole number it is that integer, if 64 bits are enough for
it, and an error otherwise. A text of this form is never taken for a decimal, so nothing is
rounded, although texts of decimals are read as whole numbers too. Blanks at both ends do
not matter.

The text of a whole number has this form, and so it is read back as the same number.

Main results:

* `Numeral.ofText?_chars` — the digits are read as the number they denote, if it is in
  range.
* `Numeral.coerceLong_of_trim` — the same for a text with blanks around the digits.
* `exists_numeral` — the text of a number is a numeral of it.
* `whole_numbers_read_exactly` — texts are read exactly, and numbers come back from their
  texts.
-/

namespace TypedConfig

/-! ## Numerals -/

/-- What may stand in front of the digits of a number. -/
inductive NumeralSign where
  | none
  | plus
  | minus
deriving DecidableEq, Repr

/-- The characters of a sign. -/
def NumeralSign.chars : NumeralSign → List Char
  | none => []
  | plus => ['+']
  | minus => ['-']

/-- A whole number as it is written: an optional sign and at least one ASCII digit. -/
structure Numeral where
  sign : NumeralSign
  digits : List Char
  digits_ne_nil : digits ≠ []
  all_isDigit : digits.all Char.isDigit = true

namespace Numeral

/-- The sign and the digits. -/
def text (number : Numeral) : String :=
  String.ofList (number.sign.chars ++ number.digits)

/-- The number that digits denote by their places, the last one counting ones. -/
def magnitude (digits : List Char) : Nat :=
  Nat.ofDigits 10 (digits.reverse.map fun c => c.toNat - '0'.toNat)

/-- The integer that is written. -/
def value (number : Numeral) : Int :=
  match number.sign with
  | .none | .plus => magnitude number.digits
  | .minus => -magnitude number.digits

/-- Reading the digits from the left comes to their places. -/
theorem ofDigitChars_eq_magnitude (digits : List Char) :
    Nat.ofDigitChars 10 digits 0 = magnitude digits := by
  induction digits using List.reverseRecOn with
  | nil => rfl
  | append_singleton front last ih =>
    -- the last digit counts once, and those in front of it ten times
    have hPlaces : magnitude (front ++ [last]) =
        last.toNat - '0'.toNat + 10 * magnitude front := by
      rw [magnitude, List.reverse_append, List.reverse_singleton, List.singleton_append,
        List.map_cons, Nat.ofDigits_cons]
      rfl
    rw [Nat.ofDigitChars_append, ih, Nat.ofDigitChars_cons, Nat.ofDigitChars_nil, hPlaces]
    omega

theorem splitSign_chars (number : Numeral) :
    Long.splitSign (number.sign.chars ++ number.digits) =
      (decide (number.sign = .minus), number.digits) := by
  cases hSign : number.sign with
  | none => exact Token.splitSign_of_isDigit number.all_isDigit
  | plus => rfl
  | minus => rfl

/-- The digits are read as the number they denote, if it is in range. -/
theorem ofText?_chars (number : Numeral) :
    Long.ofText? (number.sign.chars ++ number.digits) = Long.ofInt? number.value := by
  have hEmpty : number.digits.isEmpty = false :=
    List.isEmpty_eq_false_iff.mpr number.digits_ne_nil
  unfold Long.ofText?
  -- the sign is split off, and what is left are digits
  rw [splitSign_chars]
  simp only [hEmpty, number.all_isDigit, Bool.not_true, Bool.or_self, Bool.false_eq_true,
    if_false, ofDigitChars_eq_magnitude]
  unfold value
  cases number.sign <;> rfl

/-! ## Reading numerals -/

theorem isIntegerText_text (number : Numeral) : ScalarKind.isIntegerText number.text = true := by
  have hEmpty : number.digits.isEmpty = false :=
    List.isEmpty_eq_false_iff.mpr number.digits_ne_nil
  -- the digits of a numeral are among those of all scripts
  have hDecimal : number.digits.all Text.isDecimalDigit = true := by
    rw [List.all_eq_true]
    intro c hMem
    exact Text.isDecimalDigit_of_isDigit (List.all_eq_true.mp number.all_isDigit c hMem)
  rw [ScalarKind.isIntegerText, text, String.toList_ofList, splitSign_chars]
  simp only [hEmpty, hDecimal, Bool.not_false, Bool.and_self]

/-- A numeral is read as the whole number it denotes, whatever blanks are around it. -/
theorem coerceLong_of_trim {s : String} {number : Numeral} (h : Text.trim s = number.text) :
    ScalarKind.coerceLong (.string s) =
      match Long.ofInt? number.value with
      | some n => .ok (.long n)
      | none => .error (.coercion "i64" ("out of range " ++ singleQuoted number.text)) := by
  show ScalarKind.coerceLongText (Text.trim s) = _
  rw [h, ScalarKind.coerceLongText, if_pos number.isIntegerText_text]
  -- no decimal is looked for once the text is one of a whole number
  have hRead : Long.ofText? number.text.toList = Long.ofInt? number.value := by
    rw [text, String.toList_ofList, ofText?_chars]
  rewrite [hRead]
  cases Long.ofInt? number.value <;> rfl

end Numeral

/-! ## Texts of whole numbers -/

namespace Text

theorem isBlankChar_of_isDigit {c : Char} (h : c.isDigit = true) : isBlankChar c = false := by
  simp only [Char.isDigit, Bool.and_eq_true, decide_eq_true_eq] at h
  have hLower : 48 ≤ c.val.toNat := h.1
  have hUpper : c.val.toNat ≤ 57 := h.2
  simp only [isBlankChar, Bool.or_eq_false_iff, Bool.and_eq_false_iff, decide_eq_false_iff_not,
    beq_eq_false_iff_ne, ne_eq, ← UInt32.toNat_inj, UInt32.le_iff_toNat_le, UInt32.reduceToNat]
  omega

theorem dropWhile_isBlankChar {cs : List Char} (h : ∀ c ∈ cs, isBlankChar c = false) :
    cs.dropWhile isBlankChar = cs := by
  cases cs with
  | nil => rfl
  | cons c cs => rw [List.dropWhile_cons_of_neg (by simp [h c (List.mem_cons_self ..)])]

/-- Where nothing is blank, nothing is trimmed. -/
theorem trimChars_eq_self {cs : List Char} (h : ∀ c ∈ cs, isBlankChar c = false) :
    trimChars cs = cs := by
  have hReversed : ∀ c ∈ cs.reverse, isBlankChar c = false :=
    fun c hMem => h c (List.mem_reverse.mp hMem)
  rw [trimChars, dropWhile_isBlankChar h, dropWhile_isBlankChar hReversed, List.reverse_reverse]

end Text

/-- There is nothing to trim about a numeral. -/
theorem Numeral.trim_text (number : Numeral) : Text.trim number.text = number.text := by
  -- neither a sign nor a digit is blank
  have hBlank : ∀ c ∈ number.sign.chars ++ number.digits, Text.isBlankChar c = false := by
    intro c hMem
    rcases List.mem_append.mp hMem with hSign | hDigit
    · cases hKind : number.sign with
      | none => rw [hKind] at hSign; cases hSign
      | plus => rw [hKind] at hSign; rw [List.mem_singleton.mp hSign]; rfl
      | minus => rw [hKind] at hSign; rw [List.mem_singleton.mp hSign]; rfl
    · exact Text.isBlankChar_of_isDigit (List.all_eq_true.mp number.all_isDigit c hDigit)
  rw [Text.trim, text, String.toList_ofList, Text.trimChars_eq_self hBlank]

theorem Numeral.magnitude_toDigits (m : Nat) : magnitude (Nat.toDigits 10 m) = m := by
  rw [← ofDigitChars_eq_magnitude, Nat.ofDigitChars_ten_toDigits]

/-- The text of a whole number is a numeral of it. -/
theorem exists_numeral (n : Long) :
    ∃ number : Numeral, (Value.long n).text = number.text ∧ number.value = n.toInt := by
  have hDigits := Long.all_isDigit_toDigits n.toInt.natAbs
  by_cases hSign : n.toInt < 0
  · -- below zero: a minus and the digits of the magnitude
    refine ⟨⟨.minus, _, Nat.toDigits_ne_nil, hDigits⟩, Syntax.text_of_neg hSign, ?_⟩
    show -(Numeral.magnitude (Nat.toDigits 10 n.toInt.natAbs) : Int) = n.toInt
    rw [Numeral.magnitude_toDigits]
    omega
  · -- from zero on: the digits alone
    refine ⟨⟨.none, _, Nat.toDigits_ne_nil, hDigits⟩, Syntax.text_of_nonneg (Int.not_lt.mp hSign),
      ?_⟩
    show (Numeral.magnitude (Nat.toDigits 10 n.toInt.natAbs) : Int) = n.toInt
    rw [Numeral.magnitude_toDigits]
    omega

/-- **Texts of whole numbers are read exactly.** A text that is a numeral, blanks at its ends
apart, is read as the very integer it denotes if that is one of 64 bits, and is an error
otherwise. Every whole number is read back from its text as it was. -/
theorem whole_numbers_read_exactly :
    (∀ (s : String) (number : Numeral), Text.trim s = number.text →
      (Long.InRange number.value →
        ∃ n : Long, n.toInt = number.value ∧ ScalarKind.long.coerce (.string s) = .ok (.long n)) ∧
      (¬Long.InRange number.value →
        ScalarKind.long.coerce (.string s) =
          .error (.coercion "i64" ("out of range " ++ singleQuoted number.text)))) ∧
      ∀ n : Long, ∃ text : String,
        ScalarKind.string.coerce (.long n) = .ok (.string text) ∧
          ScalarKind.long.coerce (.string text) = .ok (.long n) := by
  constructor
  · -- a numeral with blanks around it is read
    intro s number hText
    have hRead := Numeral.coerceLong_of_trim hText
    constructor
    · intro hRange
      obtain ⟨n, hNumber⟩ := Option.ne_none_iff_exists'.mp
        (Long.ofInt?_eq_none_iff.not.mpr (not_not_intro hRange))
      rw [hNumber] at hRead
      exact ⟨n, Long.toInt_of_ofInt? hNumber, hRead⟩
    · intro hRange
      rw [Long.ofInt?_eq_none_iff.mpr hRange] at hRead
      exact hRead
  · -- a number is written and read again
    intro n
    obtain ⟨number, hText, hValue⟩ := exists_numeral n
    have hTrim : Text.trim (Value.long n).text = number.text := by
      rw [hText, number.trim_text]
    have hRead := Numeral.coerceLong_of_trim hTrim
    rw [hValue, Long.ofInt?_toInt] at hRead
    exact ⟨(Value.long n).text, rfl, hRead⟩

/-- The least number, and the one behind the greatest. -/
def leastNumeral : Numeral :=
  ⟨.minus, "0009223372036854775808".toList, by decide, by decide⟩

def beyondGreatest : Numeral :=
  ⟨.plus, "9223372036854775808".toList, by decide, by decide⟩

/-- The range ends exactly where it does, zeros in front and blanks apart. -/
theorem leastNumeral_read :
    (Text.trim " -0009223372036854775808\n" = leastNumeral.text ∧
        Long.InRange leastNumeral.value ∧
        ScalarKind.long.coerce (.string " -0009223372036854775808\n") =
          .ok (.long Int64.minValue)) ∧
      Text.trim "+9223372036854775808" = beyondGreatest.text ∧
        ¬Long.InRange beyondGreatest.value ∧
        ScalarKind.long.coerce (.string "+9223372036854775808") =
          .error (.coercion "i64" "out of range '+9223372036854775808'") := by
  obtain ⟨hExact, -⟩ := whole_numbers_read_exactly
  have hLeast : Text.trim " -0009223372036854775808\n" = leastNumeral.text := rfl
  have hBeyond : Text.trim "+9223372036854775808" = beyondGreatest.text := rfl
  have hInRange : Long.InRange leastNumeral.value := by decide
  have hOutOfRange : ¬Long.InRange beyondGreatest.value := by decide
  obtain ⟨n, hValue, hRead⟩ := (hExact _ _ hLeast).1 hInRange
  obtain rfl : n = Int64.minValue := Int64.toInt_inj.mp hValue
  exact ⟨⟨hLeast, hInRange, hRead⟩, hBeyond, hOutOfRange, (hExact _ _ hBeyond).2 hOutOfRange⟩

end TypedConfig
