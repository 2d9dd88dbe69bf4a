import TypedConfig.Expression.Evaluation
import TypedConfig.Proofs.Number.Rounding

/-!
# Comparing whole numbers in expressions

Six operators compare. On two whole numbers the four that order them are exact, while
`==` and `!=` compare the doubles nearest to them. The two kinds agree only where
rounding keeps the numbers apart: `9007199254740992` and the number after it are equal
by `==`, and the first is less than the second by `<`.

Main results:

* `holds_iff` — what each comparison of two whole numbers says about them.
* `comparisons_consistent_iff` — the comparisons of two whole numbers are consistent with
  each other exactly when the numbers are the same or are not rounded to the same double.
* `consistent_of_small` — up to `2 ^ 53` on both sides of zero they always are.
* `comparisons_not_consistent` — in general they are not.
-/

namespace TypedConfig.Evaluation

open Double (nearest)

/-! ## What the comparisons should be -/

/-- The operators that compare. -/
def comparisons : List BinaryOperator :=
  [.eq, .ne, .lt, .le, .gt, .ge]

/-- The comparison of two expressions is true. -/
def Holds (env : Environment) (op : BinaryOperator) (left right : Node) : Prop :=
  eval env (.binary op left right) = .ok (.bool true)

/-- The comparisons of two expressions fit together as those of a linear order do. -/
structure Consistent (env : Environment) (left right : Node) : Prop where
  /-- Each comparison has a truth value. -/
  answered : ∀ op ∈ comparisons, ∃ answer, eval env (.binary op left right) = .ok (.bool answer)
  some_holds : Holds env .lt left right ∨ Holds env .eq left right ∨ Holds env .gt left right
  not_lt_and_eq : ¬(Holds env .lt left right ∧ Holds env .eq left right)
  not_lt_and_gt : ¬(Holds env .lt left right ∧ Holds env .gt left right)
  not_eq_and_gt : ¬(Holds env .eq left right ∧ Holds env .gt left right)
  le_iff : Holds env .le left right ↔ Holds env .lt left right ∨ Holds env .eq left right
  ge_iff : Holds env .ge left right ↔ Holds env .gt left right ∨ Holds env .eq left right
  ne_iff : Holds env .ne left right ↔ ¬Holds env .eq left right
  /-- Only a value is equal to itself. -/
  same : Holds env .eq left right → eval env left = eval env right

/-! ## What they are -/

/-- What a comparison of two whole numbers says about them. -/
def Says : BinaryOperator → Int → Int → Prop
  | .eq, a, b => nearest a = nearest b
  | .ne, a, b => nearest a ≠ nearest b
  | .lt, a, b => a < b
  | .le, a, b => a ≤ b
  | .gt, a, b => b < a
  | .ge, a, b => b ≤ a
  | _, _, _ => False

/-- The truth value of a comparison of two whole numbers. -/
def answer (op : BinaryOperator) (a b : Long) : Bool :=
  match op with
  | .eq => equals (.long a) (.long b)
  | .ne => !equals (.long a) (.long b)
  | _ => ordered op (compare a.toInt b.toInt)

theorem answer_iff {op : BinaryOperator} (hOp : op ∈ comparisons) (a b : Long) :
    answer op a b = true ↔ Says op a.toInt b.toInt := by
  -- equality goes through the doubles, the order does not
  have hEquals : equals (.long a) (.long b) = true ↔ nearest a.toInt = nearest b.toInt :=
    Double.ofLong_beq_iff a b
  -- the two tests with equality are the negations of the strict ones
  have hNotGreater : compare a.toInt b.toInt ≠ .gt ↔ a.toInt ≤ b.toInt := by
    rw [ne_eq, Int.compare_eq_gt, Int.not_lt]
  have hNotLess : compare a.toInt b.toInt ≠ .lt ↔ b.toInt ≤ a.toInt := by
    rw [ne_eq, Int.compare_eq_lt, Int.not_lt]
  -- the six comparisons in the order of the list
  unfold comparisons at hOp
  fin_cases hOp
  · exact hEquals
  -- unequal is the negation of equal, and thus also rounded
  · show (!equals (.long a) (.long b)) = true ↔ ¬nearest a.toInt = nearest b.toInt
    rw [← hEquals, Bool.not_eq_true', Bool.not_eq_true]
  · exact beq_iff_eq.trans Int.compare_eq_lt
  · exact bne_iff_ne.trans hNotGreater
  · exact beq_iff_eq.trans Int.compare_eq_gt
  · exact bne_iff_ne.trans hNotLess

section

variable {env : Environment} {left right : Node} {a b : Long}

/-- A comparison of two whole numbers has a truth value; its left operand never decides. -/
theorem eval_comparison {op : BinaryOperator} (hOp : op ∈ comparisons)
    (hLeft : eval env left = .ok (.long a)) (hRight : eval env right = .ok (.long b)) :
    eval env (.binary op left right) = .ok (.bool (answer op a b)) := by
  -- only the connectives decide by their left operand
  have hUndecided : decides op (.long a) = false := by
    unfold comparisons at hOp
    fin_cases hOp <;> rfl
  have hApply : applyBinary op (.long a) (.long b) = .ok (.bool (answer op a b)) := by
    unfold comparisons at hOp
    fin_cases hOp <;> rfl
  rw [eval, hLeft]
  dsimp only
  rw [hUndecided, if_neg Bool.false_ne_true, hRight]
  exact hApply

/-- **What each comparison of two whole numbers says about them**: the order is exact,
equality is that of the nearest doubles. -/
theorem holds_iff {op : BinaryOperator} (hOp : op ∈ comparisons)
    (hLeft : eval env left = .ok (.long a)) (hRight : eval env right = .ok (.long b)) :
    Holds env op left right ↔ Says op a.toInt b.toInt := by
  rw [Holds, eval_comparison hOp hLeft hRight, Except.ok.injEq, Value.bool.injEq]
  exact answer_iff hOp a b

/-- Where rounding keeps two numbers apart, `==` is equality, and the rest follows from
the order of the integers. -/
theorem consistent_of_nearest (hLeft : eval env left = .ok (.long a))
    (hRight : eval env right = .ok (.long b))
    (hApart : nearest a.toInt = nearest b.toInt → a = b) : Consistent env left right := by
  have hHolds : ∀ op ∈ comparisons, (Holds env op left right ↔ Says op a.toInt b.toInt) :=
    fun op hOp => holds_iff hOp hLeft hRight
  -- kept apart, the rounded numbers are equal only with the numbers themselves
  have hEq : nearest a.toInt = nearest b.toInt ↔ a.toInt = b.toInt :=
    ⟨fun hNearest => congrArg Int64.toInt (hApart hNearest), congrArg nearest⟩
  -- each comparison says what its name says, about the integers
  obtain ⟨hEqHolds, hNeHolds, hLtHolds, hLeHolds, hGtHolds, hGeHolds⟩ :
      (Holds env .eq left right ↔ a.toInt = b.toInt) ∧
      (Holds env .ne left right ↔ ¬a.toInt = b.toInt) ∧
      (Holds env .lt left right ↔ a.toInt < b.toInt) ∧
      (Holds env .le left right ↔ a.toInt ≤ b.toInt) ∧
      (Holds env .gt left right ↔ b.toInt < a.toInt) ∧
      (Holds env .ge left right ↔ b.toInt ≤ a.toInt) :=
    ⟨(hHolds .eq (by decide)).trans hEq, (hHolds .ne (by decide)).trans (not_congr hEq),
      hHolds .lt (by decide), hHolds .le (by decide), hHolds .gt (by decide),
      hHolds .ge (by decide)⟩
  refine
    { answered := fun op hOp => ⟨_, eval_comparison hOp hLeft hRight⟩
      some_holds := ?_, not_lt_and_eq := ?_, not_lt_and_gt := ?_, not_eq_and_gt := ?_
      le_iff := ?_, ge_iff := ?_, ne_iff := ?_, same := ?_ }
  · -- what is left is the trichotomy of the integers, law by law
    rw [hLtHolds, hEqHolds, hGtHolds]
    omega
  · rw [hLtHolds, hEqHolds]
    omega
  · rw [hLtHolds, hGtHolds]
    omega
  · rw [hEqHolds, hGtHolds]
    omega
  · rw [hLeHolds, hLtHolds, hEqHolds]
    omega
  · rw [hGeHolds, hGtHolds, hEqHolds]
    omega
  · rw [hNeHolds, hEqHolds]
  · -- equal numbers are the same value
    intro hHeld
    rw [hLeft, hRight, Int64.toInt_inj.mp (hEqHolds.mp hHeld)]

/-- **Consistent are the comparisons of two whole numbers exactly when rounding keeps
the numbers apart.** -/
theorem comparisons_consistent_iff (hLeft : eval env left = .ok (.long a))
    (hRight : eval env right = .ok (.long b)) :
    Consistent env left right ↔ (nearest a.toInt = nearest b.toInt → a = b) := by
  constructor
  -- rounded alike they are equal by the operator, so they have to be the same
  · intro hConsistent hNearest
    have hEqual : Holds env .eq left right :=
      (holds_iff (by decide) hLeft hRight).mpr hNearest
    have hSame := hConsistent.same hEqual
    rw [hLeft, hRight, Except.ok.injEq, Value.long.injEq] at hSame
    exact hSame
  · exact consistent_of_nearest hLeft hRight

/-- Up to `2 ^ 53` nothing is rounded, and the comparisons are consistent. -/
theorem consistent_of_small (hLeft : eval env left = .ok (.long a))
    (hRight : eval env right = .ok (.long b)) (hSmall : a.toInt.natAbs ≤ 2 ^ 53)
    (hSmall' : b.toInt.natAbs ≤ 2 ^ 53) : Consistent env left right := by
  refine consistent_of_nearest hLeft hRight fun hNearest => ?_
  rw [Double.nearest_of_le hSmall, Double.nearest_of_le hSmall'] at hNearest
  exact Int64.toInt_inj.mp hNearest

end

/-- The two largest numbers are rounded alike; beyond `2 ^ 53` two numbers can still be
rounded apart. -/
theorem comparisons_of_large :
    ¬Consistent [] (.literal (.long 9223372036854775807)) (.literal (.long 9223372036854775806)) ∧
    Consistent [("a", .long 9007199254740992), ("b", .long 9007199254740994)]
      (.variable "a") (.variable "b") := by
  constructor
  · rw [comparisons_consistent_iff rfl rfl]
    decide
  · rw [comparisons_consistent_iff rfl rfl]
    decide

/-- **The comparisons of whole numbers are not consistent**: two numbers can be equal by
`==` and ordered by `<`. -/
theorem comparisons_not_consistent :
    Holds [] .eq (.literal (.long 9007199254740992)) (.literal (.long 9007199254740993)) ∧
    Holds [] .lt (.literal (.long 9007199254740992)) (.literal (.long 9007199254740993)) ∧
    ¬∀ (env : Environment) (left right : Node) (a b : Long),
      eval env left = .ok (.long a) → eval env right = .ok (.long b) →
      Consistent env left right := by
  have hEqual : Holds [] .eq (.literal (.long 9007199254740992))
      (.literal (.long 9007199254740993)) := by
    -- the second number is halfway between two doubles, and the even one is the first
    refine (holds_iff (by decide) rfl rfl).mpr ?_
    show nearest 9007199254740992 = nearest 9007199254740993
    decide
  -- the order is that of the integers, where they differ
  have hLess : Holds [] .lt (.literal (.long 9007199254740992))
      (.literal (.long 9007199254740993)) := by
    refine (holds_iff (by decide) rfl rfl).mpr ?_
    show (9007199254740992 : Int) < 9007199254740993
    decide
  -- equal and less at once is what consistency excludes
  refine ⟨hEqual, hLess, fun hConsistent => ?_⟩
  exact (hConsistent [] _ _ _ _ rfl rfl).not_lt_and_eq ⟨hLess, hEqual⟩

end TypedConfig.Evaluation
