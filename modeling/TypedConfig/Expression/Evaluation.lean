import TypedConfig.Error
import TypedConfig.Number.Binary

/-!
# Evaluating expressions

An expression is evaluated against an environment of named values. Arithmetic on whole numbers is
exact or fails, never wrapped; as soon as a floating point number takes part, it is floating point
arithmetic. `and` and `or` evaluate their right operand only when the left one does not decide.
-/

namespace TypedConfig

/-- Named values that expressions are evaluated against. -/
abbrev Environment := Dict Value

namespace Evaluation

/-- The values that count as true: everything but null, false, zero and what is empty. -/
def truthy : Value → Bool
  | .null => false
  | .bool b => b
  | .long n => n != 0
  | .double x => x != 0
  | .string s => s != ""
  | .list items | .set items => !items.isEmpty
  | .map entries => !entries.isEmpty
  | .expression _ => true

/-- A number as a floating point number. -/
def number? : Value → Option Float
  | .long n => some (Double.ofLong n)
  | .double x => some x
  | _ => none

/-- Equality in expressions: numbers as floating point numbers, everything else as values. -/
def equals (left right : Value) : Bool :=
  match number? left, number? right with
  | some l, some r => l == r
  | _, _ => left.equal right

/-- The order of two floating point numbers; none when one of them is no number. -/
def compareDoubles? (l r : Float) : Option Ordering :=
  if l < r then some .lt else if l == r then some .eq else if r < l then some .gt else none

/-- The order of two values: whole numbers exactly, texts by code point, other numbers as floating
point numbers. -/
def compare? : Value → Value → Option Ordering
  | .long l, .long r => some (compare l.toInt r.toInt)
  | .string l, .string r => some (compare l r)
  | left, right =>
    match number? left, number? right with
    | some l, some r => compareDoubles? l r
    | _, _ => none

/-- The answer of a comparison operator to an order. -/
def ordered (op : BinaryOperator) (ordering : Ordering) : Bool :=
  match op with
  | .lt => ordering == .lt
  | .le => ordering != .gt
  | .gt => ordering == .gt
  | _ => ordering != .lt

/-- Exact arithmetic on whole numbers. -/
def longArithmetic (op : BinaryOperator) (l r : Long) : Except ExpressionFault Value :=
  let checked (result : Option Long) : Except ExpressionFault Value :=
    match result with
    | some n => .ok (.long n)
    | none => .error .overflow
  match op with
  | .add => checked (Long.add? l r)
  | .sub => checked (Long.sub? l r)
  | .mul => checked (Long.mul? l r)
  | .div => if r = 0 then .error .divisionByZero else checked (Long.quotient? l r)
  | _ => if r = 0 then .error .divisionByZero else checked (Long.remainder? l r)

/-- Floating point arithmetic. -/
def doubleArithmetic (op : BinaryOperator) (l r : Float) : Float :=
  match op with
  | .add => l + r
  | .sub => l - r
  | .mul => l * r
  | .div => l / r
  | _ => Double.remainder l r

/-- Arithmetic on two values. -/
def arithmetic (op : BinaryOperator) (left right : Value) : Except ExpressionFault Value :=
  match left, right with
  | .long l, .long r => longArithmetic op l r
  | _, _ =>
    match number? left, number? right with
    | some l, some r => .ok (.double (doubleArithmetic op l r))
    | _, _ => .error (.inapplicable op left.kind right.kind)

/-- A unary operator on an evaluated operand. -/
def applyUnary (op : UnaryOperator) (operand : Value) : Except ExpressionFault Value :=
  match op with
  | .not => .ok (.bool (!truthy operand))
  | .negate =>
    match operand with
    | .long n =>
      match Long.neg? n with
      | some m => .ok (.long m)
      | none => .error .overflow
    | .double x => .ok (.double (-x))
    | other => .error (.notNegatable other.kind)

/-- A binary operator on two evaluated operands. -/
def applyBinary (op : BinaryOperator) (left right : Value) : Except ExpressionFault Value :=
  match op with
  | .or => .ok (.bool (truthy left || truthy right))
  | .and => .ok (.bool (truthy left && truthy right))
  | .concat => .ok (.string (left.text ++ right.text))
  | .eq => .ok (.bool (equals left right))
  | .ne => .ok (.bool (!equals left right))
  | .lt | .le | .gt | .ge =>
    match compare? left right with
    | some ordering => .ok (.bool (ordered op ordering))
    | none => .error (.incomparable left.kind right.kind)
  | _ => arithmetic op left right

/-- The left operand decides the outcome of the operator. -/
def decides (op : BinaryOperator) (left : Value) : Bool :=
  match op with
  | .or => truthy left
  | .and => !truthy left
  | _ => false

mutual

/-- The value of a syntax tree. -/
def eval (env : Environment) : Node → Except ExpressionFault Value
  | .literal value => .ok value
  | .variable name =>
    match env.get? name with
    | some value => .ok value
    | none => .error (.unknownVariable name)
  | .list items =>
    match evalItems env items with
    | .ok values => .ok (.list values)
    | .error fault => .error fault
  | .unary op operand =>
    match eval env operand with
    | .ok value => applyUnary op value
    | .error fault => .error fault
  | .binary op left right =>
    match eval env left with
    | .error fault => .error fault
    | .ok l =>
      -- where the left operand decides, the right one may even be faulty
      if decides op l then .ok (.bool (truthy l))
      else
        match eval env right with
        | .error fault => .error fault
        | .ok r => applyBinary op l r
termination_by structural node => node

/-- The values of the items of a list, up to the first that fails. -/
def evalItems (env : Environment) : List Node → Except ExpressionFault (List Value)
  | [] => .ok []
  | item :: rest =>
    match eval env item with
    | .error fault => .error fault
    | .ok value =>
      match evalItems env rest with
      | .error fault => .error fault
      | .ok values => .ok (value :: values)
termination_by structural items => items

end

end Evaluation

/-- Gives expressions their values. -/
abbrev Evaluator := Expression → Environment → Outcome Value

/-- The evaluator that walks the syntax tree; its faults name the expression they occurred in. -/
def Evaluator.interpreter : Evaluator := fun e env =>
  match Evaluation.eval env e.root with
  | .ok value => .ok value
  | .error fault => .error (.expression (.inside fault e.source))

end TypedConfig
