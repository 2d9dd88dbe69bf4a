import TypedConfig.Expression.Evaluation
import TypedConfig.Proofs.Expression.Parsing

/-!
# Numbers as expressions

The text of a whole number is an expression: its digits are a literal, and the sign of a
negative number is the operator in front of it. The literal is read before the sign is
applied, so it has to be in range by itself. That is the case for every number but the
least one, which has no counterpart with the other sign: its text is refused, although it
is a value that expressions can have.

Main results:

* `parse_digits` / `parse_minus_digits` — what digits are parsed to, with and without a
  minus in front.
* `text_parsed_iff` — the text of a number is an expression of the number, unless it is
  the least one.
* `least_text_refused` — the text of the least number is none.
-/

namespace TypedConfig

namespace Long

theorem all_isDigit_toDigits (m : Nat) : (Nat.toDigits 10 m).all Char.isDigit = true :=
  List.all_eq_true.mpr fun _ hMem => Nat.isDigit_of_mem_toDigits (by decide) (by decide) hMem

/-- Digits without a sign denote a number of their own, if it is in range. -/
theorem ofText?_toDigits (m : Nat) : ofText? (Nat.toDigits 10 m) = ofInt? m := by
  have hEmpty : (Nat.toDigits 10 m).isEmpty = false :=
    List.isEmpty_eq_false_iff.mpr Nat.toDigits_ne_nil
  unfold ofText?
  rw [Token.splitSign_of_isDigit (all_isDigit_toDigits m)]
  simp only [hEmpty, all_isDigit_toDigits, Bool.not_true, Bool.or_self, Bool.false_eq_true,
    if_false]
  rw [Nat.ofDigitChars_ten_toDigits]

/-- Negating twice is possible wherever negating once is. -/
theorem neg?_of_neg? {n m : Long} (h : neg? n = some m) : neg? m = some n := by
  have hNegated : m.toInt = -n.toInt := toInt_of_ofInt? h
  rw [neg?, hNegated, Int.neg_neg, ofInt?_toInt]

/-- Only the least number has no counterpart with the other sign. -/
theorem neg?_eq_none_iff {n : Long} : neg? n = none ↔ n = Int64.minValue := by
  have hLower : -2 ^ 63 ≤ n.toInt := Int64.le_toInt n
  have hUpper : n.toInt < 2 ^ 63 := Int64.toInt_lt n
  have hLeast : Int64.minValue.toInt = -2 ^ 63 := by decide
  -- the range of the negation is all that is left to be compared
  rw [← Int64.toInt_inj, hLeast, neg?, ofInt?]
  split
  · refine iff_of_false (Option.some_ne_none _) ?_
    omega
  · refine iff_of_true rfl ?_
    omega

end Long

/-! ## Tokens -/

namespace Token

section
variable {digits : List Char} (hNonempty : digits ≠ [])
  (hDigits : digits.all Char.isDigit = true)
include hNonempty hDigits

theorem scanAll?_digits {fuel : Nat} (hFuel : 0 < fuel) :
    scanAll? fuel digits = some [.integer digits] := by
  obtain ⟨fuel, rfl⟩ := Nat.exists_eq_add_one.mpr hFuel
  have hScan : scan? (digits ++ []) = some (.integer digits, []) :=
    scan?_digits hNonempty hDigits nofun
  -- a digit is no blank, so the scan starts right away
  obtain ⟨c, cs, hChars⟩ := List.exists_cons_of_ne_nil hNonempty
  have hFirst : c.isDigit = true :=
    List.all_eq_true.mp hDigits c (hChars ▸ List.mem_cons_self ..)
  rw [List.append_nil, hChars] at hScan
  rw [hChars, scanAll?_of_scan? (isSpace_of_isDigit hFirst) hScan, scanAll?_nil]
  rfl

theorem ofText?_digits : ofText? (String.ofList digits) = some [.integer digits] := by
  rw [ofText?, String.toList_ofList]
  exact scanAll?_digits hNonempty hDigits (List.length_pos_iff.mpr hNonempty)

/-- A minus in front of digits is a token by itself. -/
theorem ofText?_minus_digits :
    ofText? (String.ofList ('-' :: digits)) = some [.operator .sub, .integer digits] := by
  have hMinus : scan? ('-' :: digits) = some (.operator .sub, digits) := rfl
  rw [ofText?, String.toList_ofList, List.length_cons, scanAll?_of_scan? rfl hMinus,
    scanAll?_digits hNonempty hDigits (List.length_pos_iff.mpr hNonempty)]
  rfl

end

end Token

/-! ## Trees -/

namespace Syntax

/-- Digits are read as a literal, which is zero as long as they are out of range. -/
theorem reads_digits (nested : Reader Node) (digits : List Char) :
    Reads (primary nested) unaryLevel (.literal (.long ((Long.ofText? digits).getD 0)))
      [.integer digits] :=
  reads_primary (fun op => by cases op <;> nofun) fun _ => rfl

section
variable {digits : List Char} (hNonempty : digits ≠ [])
  (hDigits : digits.all Char.isDigit = true)
include hNonempty hDigits

/-- Digits alone are a literal, if they are in range. -/
theorem parse_digits :
    Expression.parse (String.ofList digits) =
      match Long.ofText? digits with
      | some n => .ok ⟨String.ofList digits, .literal (.long n)⟩
      | none => .error (.expression (.integerOutOfRange (String.ofList digits))) := by
  rw [parse_of_reads (Token.ofText?_digits hNonempty hDigits)
    ((reads_digits _ digits).loosest (Nat.le_refl _) (Nat.zero_le _))]
  -- the number is looked up twice, for the range and for the literal
  cases hNumber : Long.ofText? digits with
  | some n => simp [outOfRange?, hNumber]
  | none => simp [outOfRange?, hNumber]

/-- Digits behind a minus are a literal with its sign changed; what has to be in range is
the literal. -/
theorem parse_minus_digits :
    Expression.parse (String.ofList ('-' :: digits)) =
      match Long.ofText? digits with
      | some n => .ok ⟨String.ofList ('-' :: digits), .unary .negate (.literal (.long n))⟩
      | none => .error (.expression (.integerOutOfRange (String.ofList digits))) := by
  rw [parse_of_reads (Token.ofText?_minus_digits hNonempty hDigits)
    ((reads_unary .negate (reads_digits _ digits)).loosest (Nat.le_refl _) (Nat.zero_le _))]
  -- the minus is no part of the literal, so the digits alone decide
  cases hNumber : Long.ofText? digits with
  | some n => simp [outOfRange?, hNumber]
  | none => simp [outOfRange?, hNumber]

end

/-! ## Numbers -/

theorem text_of_nonneg {n : Long} (h : 0 ≤ n.toInt) :
    (Value.long n).text = String.ofList (Nat.toDigits 10 n.toInt.natAbs) := by
  rw [Value.text, Long.text, if_neg (by omega), List.nil_append]

theorem text_of_neg {n : Long} (h : n.toInt < 0) :
    (Value.long n).text = String.ofList ('-' :: Nat.toDigits 10 n.toInt.natAbs) := by
  rw [Value.text, Long.text, if_pos h, List.singleton_append]

/-- A number from zero on is a literal. -/
theorem parse_text_of_nonneg {n : Long} (h : 0 ≤ n.toInt) :
    Expression.parse (Value.long n).text = .ok ⟨(Value.long n).text, .literal (.long n)⟩ := by
  have hNumber : Long.ofText? (Nat.toDigits 10 n.toInt.natAbs) = some n := by
    rw [Long.ofText?_toDigits, Int.natAbs_of_nonneg h, Long.ofInt?_toInt]
  rw [text_of_nonneg h, parse_digits Nat.toDigits_ne_nil (Long.all_isDigit_toDigits _), hNumber]

/-- A negative number is the negation of a literal, if that is in range. -/
theorem parse_text_of_neg {n : Long} (h : n.toInt < 0) :
    Expression.parse (Value.long n).text =
      match Long.neg? n with
      | some m => .ok ⟨(Value.long n).text, .unary .negate (.literal (.long m))⟩
      | none => .error (.expression
          (.integerOutOfRange (String.ofList (Nat.toDigits 10 n.toInt.natAbs)))) := by
  -- the digits behind the sign are those of the number with the other sign
  have hNumber : Long.ofText? (Nat.toDigits 10 n.toInt.natAbs) = Long.neg? n := by
    rw [Long.ofText?_toDigits, Int.ofNat_natAbs_of_nonpos (by omega), Long.neg?]
  rw [text_of_neg h, parse_minus_digits Nat.toDigits_ne_nil (Long.all_isDigit_toDigits _), hNumber]

/-- The text of the least number: its digits are out of range. -/
theorem parse_least : Expression.parse (Value.long Int64.minValue).text =
    .error (.expression (.integerOutOfRange "9223372036854775808")) := by
  rw [parse_text_of_neg (by decide), Long.neg?_eq_none_iff.mpr rfl]
  rfl

/-- **The text of a number is an expression of the number, unless it is the least one.** -/
theorem text_parsed_iff (n : Long) :
    (∃ e, Expression.parse (Value.long n).text = .ok e ∧
      ∀ env, Evaluator.interpreter e env = .ok (.long n)) ↔ n ≠ Int64.minValue := by
  constructor
  -- the least number itself is refused
  · rintro ⟨e, hParse, -⟩ rfl
    rw [parse_least] at hParse
    cases hParse
  · intro hOther
    -- a number from zero on is its own literal
    by_cases hSign : 0 ≤ n.toInt
    · exact ⟨_, parse_text_of_nonneg hSign, fun env => rfl⟩
    · obtain ⟨m, hNegated⟩ := Option.ne_none_iff_exists'.mp (Long.neg?_eq_none_iff.not.mpr hOther)
      have hParse := parse_text_of_neg (Int.not_le.mp hSign)
      rw [hNegated] at hParse
      refine ⟨_, hParse, fun env => ?_⟩
      -- evaluation changes the sign back
      have hEval : Evaluation.eval env (.unary .negate (.literal (.long m))) = .ok (.long n) := by
        show (match Long.neg? m with
          | some l => Except.ok (Value.long l)
          | none => Except.error ExpressionFault.overflow) = .ok (.long n)
        rw [Long.neg?_of_neg? hNegated]
      rw [Evaluator.interpreter, hEval]

/-- **The text of the least number is no expression**, for the literal in it is out of
range. -/
theorem least_text_refused :
    Expression.parse "-9223372036854775808" =
        .error (.expression (.integerOutOfRange "9223372036854775808")) ∧
      ¬∀ n : Long, ∃ e, Expression.parse (Value.long n).text = .ok e ∧
        ∀ env, Evaluator.interpreter e env = .ok (.long n) := by
  have hText : (Value.long Int64.minValue).text = "-9223372036854775808" := rfl
  refine ⟨hText ▸ parse_least, fun hAll => ?_⟩
  -- a counterexample for all numbers is one for the least
  obtain ⟨e, hParse, -⟩ := hAll Int64.minValue
  rw [parse_least] at hParse
  cases hParse

end Syntax

end TypedConfig
