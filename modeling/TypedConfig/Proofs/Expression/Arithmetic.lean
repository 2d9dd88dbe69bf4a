import Mathlib.Algebra.Group.Int.Defs
import Mathlib.Tactic.FinCases
import TypedConfig.Expression.Evaluation

/-!
# Arithmetic on whole numbers in expressions

An expression of whole numbers has a value over the unbounded integers, where nothing
overflows and quotients are rounded toward zero. Evaluating it gives that value as long as
every part of the expression has one of 64 bits, and a fault as soon as one has not. Two
operations fail for their operands rather than for their result: nothing is divided by
zero, and the remainder of the least number by `-1` is refused together with the quotient,
although it would be zero.

The argument follows the evaluation: `Computes` says of one outcome that it is the exact
value where there is one and a fault otherwise. It holds of every single operation, and an
operation on outcomes it holds of keeps it.

Main results:

* `computes_longArithmetic` — one operation on two numbers.
* `computes_eval` — any expression of whole numbers, by induction on it.
* `interpreter_integral` — an expression evaluates to the exact value, or is in error.
-/

namespace TypedConfig

namespace Long

/-- The integer is one of 64 bits. -/
def InRange (z : Int) : Prop :=
  -2 ^ 63 ≤ z ∧ z < 2 ^ 63

instance (z : Int) : Decidable (InRange z) :=
  inferInstanceAs (Decidable (_ ∧ _))

theorem inRange_toInt (a : Long) : InRange a.toInt :=
  ⟨Int64.le_toInt a, Int64.toInt_lt a⟩

theorem ofInt?_eq_none_iff {z : Int} : ofInt? z = none ↔ ¬InRange z := by
  unfold ofInt? InRange
  split
  · simp
    omega
  · simp
    omega

/-- Only the quotient of the least number by `-1` is out of range. -/
theorem inRange_tdiv_iff {a b : Int} (ha : InRange a) (hb : b ≠ 0) :
    InRange (a.tdiv b) ↔ ¬(a = -2 ^ 63 ∧ b = -1) := by
  have hAbs : (a.tdiv b).natAbs = a.natAbs / b.natAbs := Int.natAbs_tdiv a b
  unfold InRange at ha ⊢
  constructor
  -- the excluded pair gives 2 ^ 63, one above the largest number
  · rintro ⟨-, hUpper⟩ ⟨rfl, rfl⟩
    exact absurd hUpper (by decide)
  · intro hOther
    by_cases hUnit : b.natAbs = 1
    · rcases Int.natAbs_eq_iff.mp hUnit with rfl | rfl
      · simpa using ha
      · -- the sign changes, which only the least number does not survive
        rw [Int.tdiv_neg, Int.natCast_one, Int.tdiv_one]
        omega
    · -- otherwise at least half of the dividend is lost
      have hHalf : a.natAbs / b.natAbs ≤ a.natAbs / 2 :=
        Nat.div_le_div_left (by omega) (by decide)
      omega

end Long

/-! ## Parts of expressions -/

/-- The expression itself and everything that it is made of. -/
inductive Node.Contains : Node → Node → Prop
  | self (node : Node) : Contains node node
  | item {items : List Node} {item part : Node} :
      item ∈ items → Contains item part → Contains (.list items) part
  | operand {op : UnaryOperator} {operand part : Node} :
      Contains operand part → Contains (.unary op operand) part
  | left {op : BinaryOperator} {left right part : Node} :
      Contains left part → Contains (.binary op left right) part
  | right {op : BinaryOperator} {left right part : Node} :
      Contains right part → Contains (.binary op left right) part

namespace Evaluation

/-! ## Exact values -/

/-- The operators of arithmetic. -/
def arithmeticOperators : List BinaryOperator :=
  [.add, .sub, .mul, .div, .rem]

/-- An expression of whole numbers: of literals, of variables that are bound to some, and
of what arithmetic makes of them. -/
inductive Integral (env : Environment) : Node → Prop
  | literal (n : Long) : Integral env (.literal (.long n))
  | variable {name : String} {n : Long} :
      env.get? name = some (.long n) → Integral env (.variable name)
  | negate {operand : Node} : Integral env operand → Integral env (.unary .negate operand)
  | binary {op : BinaryOperator} {left right : Node} :
      op ∈ arithmeticOperators → Integral env left → Integral env right →
      Integral env (.binary op left right)

/-- An operation on unbounded integers. Quotients are rounded toward zero, so that a
remainder has the sign of the dividend. -/
def exactly (op : BinaryOperator) (a b : Int) : Int :=
  match op with
  | .add => a + b
  | .sub => a - b
  | .mul => a * b
  | .div => a.tdiv b
  | _ => a.tmod b

/-- The value of an expression of whole numbers over the unbounded integers. -/
def exact (env : Environment) : Node → Int
  | .literal (.long n) => n.toInt
  | .variable name =>
    match env.get? name with
    | some (.long n) => n.toInt
    | _ => 0
  | .unary .negate operand => -exact env operand
  | .binary op left right => exactly op (exact env left) (exact env right)
  | _ => 0
termination_by structural node => node

/-- The operation can be done with 64 bits: the result has no more, no divisor is zero,
and a remainder is not that of the least number by `-1`. -/
structure Feasible (op : BinaryOperator) (a b : Int) : Prop where
  inRange : Long.InRange (exactly op a b)
  divisor : op = .div ∨ op = .rem → b ≠ 0
  remainder : op = .rem → ¬(a = -2 ^ 63 ∧ b = -1)

/-- The value of the expression has 64 bits, and its operation can be done with them. -/
def Fits (env : Environment) : Node → Prop
  | .binary op left right => Feasible op (exact env left) (exact env right)
  | node => Long.InRange (exact env node)

/-- Every part of the expression fits. -/
def Fitting (env : Environment) (node : Node) : Prop :=
  ∀ part, node.Contains part → Fits env part

section
variable {env : Environment}

theorem fitting_literal (n : Long) : Fitting env (.literal (.long n)) := by
  rintro _ ⟨⟩
  exact Long.inRange_toInt n

theorem exact_variable {name : String} {n : Long} (h : env.get? name = some (.long n)) :
    exact env (.variable name) = n.toInt := by
  rw [exact, h]

theorem fitting_variable {name : String} {n : Long} (h : env.get? name = some (.long n)) :
    Fitting env (.variable name) := by
  rintro _ ⟨⟩
  show Long.InRange (exact env (.variable name))
  rw [exact_variable h]
  exact Long.inRange_toInt n

theorem fitting_negate_iff {operand : Node} :
    Fitting env (.unary .negate operand) ↔
      Fitting env operand ∧ Long.InRange (-exact env operand) := by
  constructor
  -- every part of the operand is a part of the negation
  · intro h
    exact ⟨fun part hPart => h part (.operand hPart), h _ (.self _)⟩
  -- a part of the negation is the negation itself or a part of the operand
  · rintro ⟨hOperand, hRange⟩ part hPart
    cases hPart with
    | self => exact hRange
    | operand hPart => exact hOperand part hPart

theorem fitting_binary_iff {op : BinaryOperator} {left right : Node} :
    Fitting env (.binary op left right) ↔ Fitting env left ∧ Fitting env right ∧
      Feasible op (exact env left) (exact env right) := by
  constructor
  -- both operands are parts, and the operation itself has to be feasible
  · intro h
    exact ⟨fun part hPart => h part (.left hPart), fun part hPart => h part (.right hPart),
      h _ (.self _)⟩
  -- a part is the whole operation or lies in one of the operands
  · rintro ⟨hLeft, hRight, hFeasible⟩ part hPart
    cases hPart with
    | self => exact hFeasible
    | left hPart => exact hLeft part hPart
    | right hPart => exact hRight part hPart

end

/-! ## Outcomes -/

/-- The faults that arithmetic on whole numbers has. -/
def arithmeticFaults : List ExpressionFault :=
  [.overflow, .divisionByZero]

/-- The outcome is the integer if that is possible, and a fault of arithmetic if not. -/
def Computes (outcome : Except ExpressionFault Value) (possible : Prop) (z : Int) : Prop :=
  (possible ∧ ∃ n : Long, outcome = .ok (.long n) ∧ n.toInt = z) ∨
    ¬possible ∧ ∃ fault ∈ arithmeticFaults, outcome = .error fault

theorem Computes.of_iff {outcome : Except ExpressionFault Value} {possible possible' : Prop}
    {z : Int} (h : Computes outcome possible z) (hIff : possible' ↔ possible) :
    Computes outcome possible' z := by
  rwa [Computes, hIff]

/-- A result is checked for its range. -/
theorem computes_checked (z : Int) :
    Computes (match Long.ofInt? z with
      | some n => .ok (.long n)
      | none => .error .overflow) (Long.InRange z) z := by
  cases hResult : Long.ofInt? z with
  | some n =>
    -- in range: the checked result is the exact one
    have hValue : n.toInt = z := Long.toInt_of_ofInt? hResult
    exact .inl ⟨hValue ▸ Long.inRange_toInt n, n, rfl, hValue⟩
  | none =>
    exact .inr ⟨Long.ofInt?_eq_none_iff.mp hResult, .overflow, by simp [arithmeticFaults], rfl⟩

/-- Dividing by zero is a fault of its own. -/
theorem computes_divisionByZero {op : BinaryOperator} (hOp : op = .div ∨ op = .rem) (a : Int)
    (z : Int) : Computes (.error .divisionByZero) (Feasible op a 0) z :=
  .inr ⟨fun h => h.divisor hOp rfl, .divisionByZero, by simp [arithmeticFaults], rfl⟩

theorem toInt_eq_zero_iff {b : Long} : b.toInt = 0 ↔ b = 0 := by
  rw [← Int64.toInt_inj]
  rfl

/-- A remainder needs the quotient to be in range as well. -/
theorem remainder?_eq {a b : Long} (hb : b ≠ 0) :
    Long.remainder? a b =
      if a.toInt = -2 ^ 63 ∧ b.toInt = -1 then none
      else Long.ofInt? (a.toInt.tmod b.toInt) := by
  -- the quotient is taken first and thrown away, so the one that is out of range decides
  have hQuotient := Long.inRange_tdiv_iff (Long.inRange_toInt a) (toInt_eq_zero_iff.not.mpr hb)
  rw [Long.remainder?, Long.quotient?]
  split
  · next hLeast =>
    -- the quotient overflows although the remainder would be 0
    rw [Long.ofInt?_eq_none_iff.mpr (hQuotient.not.mpr (not_not_intro hLeast))]
    rfl
  · next hOther =>
    -- any other quotient is in range, so only the remainder is left to be checked
    have hSome : Long.ofInt? (a.toInt.tdiv b.toInt) ≠ none := fun hNone =>
      Long.ofInt?_eq_none_iff.mp hNone (hQuotient.mpr hOther)
    obtain ⟨q, hq⟩ := Option.ne_none_iff_exists'.mp hSome
    rw [hq]
    rfl

/-- **One operation on two numbers is exact, or a fault.** -/
theorem computes_longArithmetic {op : BinaryOperator} (hOp : op ∈ arithmeticOperators)
    (a b : Long) :
    Computes (longArithmetic op a b) (Feasible op a.toInt b.toInt)
      (exactly op a.toInt b.toInt) := by
  -- apart from division only the range of the result matters
  have hRange : ¬(op = .div ∨ op = .rem) →
      (Feasible op a.toInt b.toInt ↔ Long.InRange (exactly op a.toInt b.toInt)) := fun hOther =>
    ⟨fun h => h.inRange, fun h => ⟨h, fun hDivides => absurd hDivides hOther,
      fun hRem => absurd (.inr hRem) hOther⟩⟩
  simp only [arithmeticOperators, List.mem_cons, List.not_mem_nil, or_false] at hOp
  rcases hOp with rfl | rfl | rfl | hDivides
  · -- adding, subtracting and multiplying differ in the number that is checked
    exact (computes_checked (a.toInt + b.toInt)).of_iff (hRange (by simp))
  · exact (computes_checked (a.toInt - b.toInt)).of_iff (hRange (by simp))
  · exact (computes_checked (a.toInt * b.toInt)).of_iff (hRange (by simp))
  · by_cases hb : b = 0
    -- a zero divisor is told before anything is computed
    · have hFault : longArithmetic op a b = .error .divisionByZero := by
        rcases hDivides with rfl | rfl <;> exact if_pos hb
      rw [hFault, toInt_eq_zero_iff.mpr hb]
      exact computes_divisionByZero hDivides _ _
    · have hDivisor : b.toInt ≠ 0 := toInt_eq_zero_iff.not.mpr hb
      rcases hDivides with rfl | rfl
      -- the quotient is a checked result like the others
      · have hChecked := computes_checked (a.toInt.tdiv b.toInt)
        rw [longArithmetic, if_neg hb]
        exact hChecked.of_iff ⟨fun h => h.inRange, fun h => ⟨h, fun _ => hDivisor, nofun⟩⟩
      · unfold longArithmetic
        dsimp only
        rw [if_neg hb, remainder?_eq hb]
        -- the remainder is at fault with its quotient, whatever it would be itself
        by_cases hLeast : a.toInt = -2 ^ 63 ∧ b.toInt = -1
        · rw [if_pos hLeast]
          exact .inr ⟨fun h => h.remainder rfl hLeast, .overflow, by simp [arithmeticFaults], rfl⟩
        · rw [if_neg hLeast]
          exact (computes_checked (a.toInt.tmod b.toInt)).of_iff
            ⟨fun h => h.inRange, fun h => ⟨h, fun _ => hDivisor, fun _ => hLeast⟩⟩

/-- A changed sign is checked for its range. -/
theorem computes_negate (n : Long) :
    Computes (applyUnary .negate (.long n)) (Long.InRange (-n.toInt)) (-n.toInt) :=
  computes_checked (-n.toInt)

/-- The left operand of arithmetic never decides. -/
theorem decides_arithmetic {op : BinaryOperator} (hOp : op ∈ arithmeticOperators) (v : Value) :
    decides op v = false := by
  unfold arithmeticOperators at hOp
  fin_cases hOp <;> rfl

theorem eval_binary {env : Environment} {op : BinaryOperator} (hOp : op ∈ arithmeticOperators)
    {left right : Node} {a b : Long} (hLeft : eval env left = .ok (.long a))
    (hRight : eval env right = .ok (.long b)) :
    eval env (.binary op left right) = longArithmetic op a b := by
  -- the operation on two numbers does not look at anything but the numbers
  have hApply : applyBinary op (.long a) (.long b) = longArithmetic op a b := by
    unfold arithmeticOperators at hOp
    fin_cases hOp <;> rfl
  -- the left operand never decides, so the right one is evaluated as well
  rw [eval, hLeft]
  dsimp only
  rw [decides_arithmetic hOp, if_neg Bool.false_ne_true, hRight]
  exact hApply

/-- **An expression of whole numbers is computed exactly, or it is at fault.** -/
theorem computes_eval {env : Environment} {node : Node} (h : Integral env node) :
    Computes (eval env node) (Fitting env node) (exact env node) := by
  induction h with
  -- a literal and a bound variable are numbers, and numbers are in range
  | literal n => exact .inl ⟨fitting_literal n, n, rfl, rfl⟩
  | «variable» hName =>
    refine .inl ⟨fitting_variable hName, _, ?_, (exact_variable hName).symm⟩
    rw [eval, hName]
  | @negate operand _ ih =>
    rw [Computes, fitting_negate_iff]
    rcases ih with ⟨hFitting, n, hValue, hExact⟩ | ⟨hNot, fault, hFault, hError⟩
    · -- the operand has its exact value, and only the change of sign can leave the range
      have hEval : eval env (.unary .negate operand) = applyUnary .negate (.long n) := by
        rw [eval, hValue]
      have hNegated := computes_negate n
      rw [← hEval, hExact] at hNegated
      exact hNegated.of_iff ⟨And.right, fun hRange => ⟨hFitting, hRange⟩⟩
    · -- a fault of the operand is that of the negation
      refine .inr ⟨fun hBoth => hNot hBoth.1, fault, hFault, ?_⟩
      rw [eval, hError]
  | @binary op left right hOp _ _ ihLeft ihRight =>
    rw [Computes, fitting_binary_iff]
    rcases ihLeft with ⟨hLeft, a, hValue, hExact⟩ | ⟨hNot, fault, hFault, hError⟩
    · rcases ihRight with ⟨hRight, b, hValue', hExact'⟩ | ⟨hNot, fault, hFault, hError⟩
      · -- both operands have their exact values, so everything depends on the operation
        have hComputes := computes_longArithmetic hOp a b
        rw [← eval_binary hOp hValue hValue', hExact, hExact'] at hComputes
        exact hComputes.of_iff ⟨fun hAll => hAll.2.2, fun hFeasible => ⟨hLeft, hRight, hFeasible⟩⟩
      · -- arithmetic goes on to its right operand whatever the left one is
        refine .inr ⟨fun hAll => hNot hAll.2.1, fault, hFault, ?_⟩
        rw [eval, hValue]
        dsimp only
        rw [decides_arithmetic hOp, if_neg Bool.false_ne_true, hError]
    · -- a fault of the left operand is that of the whole
      refine .inr ⟨fun hAll => hNot hAll.1, fault, hFault, ?_⟩
      rw [eval, hError]

/-- **Arithmetic on whole numbers is exact or an error.** An expression of whole numbers
evaluates to a number exactly when every part of it fits into 64 bits, and then to its
exact value; otherwise it is in error, and the error is one of arithmetic. -/
theorem interpreter_integral {env : Environment} {e : Expression} (h : Integral env e.root) :
    (∀ n : Long, Evaluator.interpreter e env = .ok (.long n) ↔
        Fitting env e.root ∧ n.toInt = exact env e.root) ∧
      (¬Fitting env e.root → ∃ fault ∈ arithmeticFaults,
        Evaluator.interpreter e env = .error (.expression (.inside fault e.source))) := by
  unfold Evaluator.interpreter
  rcases computes_eval h with ⟨hFitting, m, hValue, hExact⟩ | ⟨hNot, fault, hFault, hError⟩
  · -- a value: it is the only one, and every part fits
    rw [hValue]
    refine ⟨fun n => ?_, fun hNot => absurd hFitting hNot⟩
    rw [← hExact, Int64.toInt_inj]
    simp [hFitting, eq_comm]
  · -- a fault: no value is read, and the fault is named with its source
    rw [hError]
    exact ⟨fun n => iff_of_false nofun fun hBoth => hNot hBoth.1,
      fun _ => ⟨fault, hFault, rfl⟩⟩

/-- A quotient that is rounded. -/
def halvedDebt : Expression :=
  ⟨"-7 / 2", .binary .div (.unary .negate (.literal (.long 7))) (.literal (.long 2))⟩

/-- A remainder that would be zero. -/
def leastRemainder : Expression :=
  ⟨"least % -1", .binary .rem (.variable "least") (.unary .negate (.literal (.long 1)))⟩

def leastBindings : Environment :=
  [("least", .long (-9223372036854775808))]

theorem halvedDebt_integral : Integral [] halvedDebt.root :=
  .binary (by decide) (.negate (.literal 7)) (.literal 2)

theorem leastRemainder_integral : Integral leastBindings leastRemainder.root :=
  .binary (by decide) (.variable rfl) (.negate (.literal 1))

theorem halvedDebt_fitting : Fitting [] halvedDebt.root := by
  have hDebt : Fitting [] (.unary .negate (.literal (.long 7))) :=
    fitting_negate_iff.mpr ⟨fitting_literal 7, by unfold Long.InRange; decide⟩
  have hHalf : Feasible .div (-7) 2 :=
    ⟨by unfold Long.InRange; decide, by decide, nofun⟩
  exact fitting_binary_iff.mpr ⟨hDebt, fitting_literal 2, hHalf⟩

/-- The quotient is rounded toward zero, and the remainder is refused. -/
theorem halvedDebt_computed :
    Integral [] halvedDebt.root ∧
      Evaluator.interpreter halvedDebt [] = .ok (.long (-3)) ∧
      Integral leastBindings leastRemainder.root ∧
      ∃ fault ∈ arithmeticFaults, Evaluator.interpreter leastRemainder leastBindings =
        .error (.expression (.inside fault "least % -1")) := by
  -- the least number by -1 leaves no remainder, but its quotient is out of range
  have hRefused : ¬Fitting leastBindings leastRemainder.root := fun h =>
    (fitting_binary_iff.mp h).2.2.remainder rfl ⟨rfl, rfl⟩
  exact ⟨halvedDebt_integral,
    ((interpreter_integral halvedDebt_integral).1 (-3)).mpr ⟨halvedDebt_fitting, rfl⟩,
    leastRemainder_integral, (interpreter_integral leastRemainder_integral).2 hRefused⟩

end Evaluation

end TypedConfig
