import TypedConfig.Proofs.Expression.Arithmetic

/-!
# Late binding

An expression is evaluated long after it was read, against whatever bindings there are
then. Of these only the ones of its own variables matter. And what has a value once keeps
it, whatever is bound in addition: an evaluation that succeeds has looked up nothing that
was unbound, so it never takes notice of a new name.

Both say that something the two environments have in common for each variable is passed on
to the expression as a whole. `Carried` names what can be passed on in this way, which is
whatever survives when two evaluations go on from it; `eval_carried` follows it through the
syntax tree. An operand that is not evaluated needs no case of its own: where the left
operand decides, both evaluations stop there.

Main results:

* `carried_eq` / `carried_ok` — outcomes that are the same, and values that stay.
* `eval_carried` — an expression carries on what its variables have in common.
* `late_binding_monotone` — only the variables matter, and more bindings change no value.
-/

namespace TypedConfig.Evaluation

/-! ## What two evaluations have in common -/

/-- A relation between the outcomes of two evaluations that holds again once both go on in
related ways. -/
structure Carried
    (R : (α : Type) → Except ExpressionFault α → Except ExpressionFault α → Prop) : Prop where
  refl : ∀ {α : Type} (o : Except ExpressionFault α), R α o o
  bind : ∀ {α β : Type} {o o' : Except ExpressionFault α}
    {f f' : α → Except ExpressionFault β},
    R α o o' → (∀ a, R β (f a) (f' a)) → R β (o >>= f) (o' >>= f')

theorem carried_eq : Carried fun _ => Eq where
  refl _ := rfl
  bind hFirst hRest := by
    rw [hFirst, funext hRest]

/-- A value that was there stays; a fault may become anything. -/
theorem carried_ok : Carried fun _ o o' => ∀ a, o = .ok a → o' = .ok a where
  refl _ _ h := h
  bind {_ _ o o' f f'} hFirst hRest := by
    intro b hValue
    cases o with
    | error fault => cases hValue
    | ok a =>
      -- the first step gives the same value, so the second one starts from it
      rw [hFirst a rfl]
      exact hRest a b hValue

/-! ## Evaluation as a sequence -/

section
variable (env : Environment)

theorem eval_list (items : List Node) :
    eval env (.list items) = evalItems env items >>= fun values => .ok (.list values) := by
  rw [eval]
  cases evalItems env items <;> rfl

theorem eval_unary (op : UnaryOperator) (operand : Node) :
    eval env (.unary op operand) = eval env operand >>= applyUnary op := by
  rw [eval]
  cases eval env operand <;> rfl

theorem eval_binary_eq (op : BinaryOperator) (left right : Node) :
    eval env (.binary op left right) = eval env left >>= fun l =>
      if decides op l then .ok (.bool (truthy l)) else eval env right >>= applyBinary op l := by
  rw [eval]
  cases eval env left with
  | error fault => rfl
  | ok l => cases eval env right <;> rfl

theorem evalItems_cons (item : Node) (rest : List Node) :
    evalItems env (item :: rest) = eval env item >>= fun value =>
      evalItems env rest >>= fun values => .ok (value :: values) := by
  rw [evalItems]
  cases eval env item with
  | error fault => rfl
  | ok value => cases evalItems env rest <;> rfl

end

/-! ## Two environments -/

section
variable {R : (α : Type) → Except ExpressionFault α → Except ExpressionFault α → Prop}
  (hR : Carried R) {env env' : Environment}
include hR

mutual

/-- **An expression carries on what its variables have in common.** -/
theorem eval_carried (node : Node)
    (hVariables : ∀ name, node.Contains (.variable name) →
      R Value (eval env (.variable name)) (eval env' (.variable name))) :
    R Value (eval env node) (eval env' node) := by
  cases node with
  -- a literal asks for no variable, and a variable for itself
  | literal value => exact hR.refl _
  | «variable» name => exact hVariables name (.self _)
  | list items =>
    -- the variables of a list are those of its items
    rw [eval_list, eval_list]
    have hItems := evalItems_carried items fun item hItem name hName =>
      hVariables name (.item hItem hName)
    exact hR.bind hItems fun values => hR.refl _
  | unary op operand =>
    rw [eval_unary, eval_unary]
    have hOperand := eval_carried operand fun name hName => hVariables name (.operand hName)
    exact hR.bind hOperand fun value => hR.refl _
  | binary op left right =>
    rw [eval_binary_eq, eval_binary_eq]
    have hLeft := eval_carried left fun name hName => hVariables name (.left hName)
    have hRight := eval_carried right fun name hName => hVariables name (.right hName)
    refine hR.bind hLeft fun l => ?_
    -- the left operand is the same on both sides now, and so is whether it decides
    split
    · exact hR.refl _
    · exact hR.bind hRight fun r => hR.refl _
termination_by structural node

theorem evalItems_carried (items : List Node)
    (hVariables : ∀ item ∈ items, ∀ name, item.Contains (.variable name) →
      R Value (eval env (.variable name)) (eval env' (.variable name))) :
    R (List Value) (evalItems env items) (evalItems env' items) := by
  cases items with
  | nil => exact hR.refl _
  | cons item rest =>
    rw [evalItems_cons, evalItems_cons]
    -- the variables of an item are variables of the list
    have hItem := eval_carried item fun name hName =>
      hVariables item List.mem_cons_self name hName
    have hRest := evalItems_carried rest fun other hOther =>
      hVariables other (List.mem_cons_of_mem _ hOther)
    exact hR.bind hItem fun value => hR.bind hRest fun values => hR.refl _
termination_by structural items

end

end

/-- The environments bind the variables of the expression to the same values, and leave the
same of them unbound. -/
def AgreeOn (node : Node) (env env' : Environment) : Prop :=
  ∀ name, node.Contains (.variable name) → env.get? name = env'.get? name

/-- Every binding of the first environment is one of the second. -/
def ExtendedTo (env env' : Environment) : Prop :=
  ∀ name value, env.get? name = some value → env'.get? name = some value

theorem eval_variable_eq_ok_iff {env : Environment} {name : String} {value : Value} :
    eval env (.variable name) = .ok value ↔ env.get? name = some value := by
  rw [eval]
  cases env.get? name <;> simp

theorem eval_eq_of_agreeOn {node : Node} {env env' : Environment} (h : AgreeOn node env env') :
    eval env node = eval env' node := by
  refine eval_carried carried_eq node fun name hName => ?_
  rw [eval, eval, h name hName]

theorem eval_ok_of_extendedTo {env env' : Environment} (h : ExtendedTo env env') {node : Node}
    {value : Value} (hValue : eval env node = .ok value) : eval env' node = .ok value := by
  refine eval_carried carried_ok node (fun name _ v hBound => ?_) value hValue
  exact eval_variable_eq_ok_iff.mpr (h name v (eval_variable_eq_ok_iff.mp hBound))

theorem interpreter_eq_ok_iff {e : Expression} {env : Environment} {value : Value} :
    Evaluator.interpreter e env = .ok value ↔ eval env e.root = .ok value := by
  rw [Evaluator.interpreter]
  cases eval env e.root <;> simp

/-- **Late binding is monotone.** Two environments that agree on the variables of an expression
give it the same value or the same error, whatever else they bind. And where an environment has
a value for an expression, every environment with more bindings has the same one. -/
theorem late_binding_monotone (e : Expression) (env env' : Environment) :
    (AgreeOn e.root env env' →
        eval env e.root = eval env' e.root ∧
          Evaluator.interpreter e env = Evaluator.interpreter e env') ∧
      (ExtendedTo env env' → ∀ value,
        (eval env e.root = .ok value → eval env' e.root = .ok value) ∧
          (Evaluator.interpreter e env = .ok value → Evaluator.interpreter e env' = .ok value)) := by
  constructor
  · -- the same variables: value and error are the same
    intro hAgree
    have hEval := eval_eq_of_agreeOn hAgree
    refine ⟨hEval, ?_⟩
    rw [Evaluator.interpreter, Evaluator.interpreter, hEval]
  · -- more variables: values are carried over, errors may turn into values
    intro hExtended value
    refine ⟨eval_ok_of_extendedTo hExtended, ?_⟩
    rw [interpreter_eq_ok_iff, interpreter_eq_ok_iff]
    exact eval_ok_of_extendedTo hExtended

/-- A port matters only without the debug mode. -/
def openCheck : Expression :=
  ⟨"debug or port > 80",
    .binary .or (.variable "debug") (.binary .gt (.variable "port") (.literal (.long 80)))⟩

def debugBindings : Environment :=
  [("debug", .bool true)]

/-- A port that cannot be compared with a number. -/
def namedPortBindings : Environment :=
  [("debug", .bool true), ("port", .string "http")]

def quietBindings : Environment :=
  [("debug", .bool false)]

/-- The same modes, and a binding that no part of the check is about. -/
def hostBindings : Environment :=
  [("debug", .bool false), ("host", .string "localhost")]

theorem openCheck_agreeOn : AgreeOn openCheck.root quietBindings hostBindings := by
  -- the parts of the check: the check, its operands and what the right one compares
  rintro name (_ | _ | _ | hLeft | hRight)
  · cases hLeft
    rfl
  · cases hRight with
    | left hPort =>
      cases hPort
      rfl
    | right hLiteral => cases hLiteral

theorem debugBindings_extendedTo : ExtendedTo debugBindings namedPortBindings := by
  intro name value hBound
  -- only the mode is bound here, and the other environment binds it alike
  rw [debugBindings, Dict.get?_cons, Dict.get?_nil] at hBound
  rw [namedPortBindings, Dict.get?_cons]
  split at hBound
  · next hName =>
    rw [if_pos hName]
    exact hBound
  · cases hBound

/-- Without the debug mode the check misses the port, with any host. In the debug mode it holds
before there is a port, and goes on to hold with one that it could not even be about. -/
theorem openCheck_bound_late :
    AgreeOn openCheck.root quietBindings hostBindings ∧
      Evaluator.interpreter openCheck quietBindings =
        .error (.expression (.inside (.unknownVariable "port") "debug or port > 80")) ∧
      Evaluator.interpreter openCheck hostBindings =
        .error (.expression (.inside (.unknownVariable "port") "debug or port > 80")) ∧
      ExtendedTo debugBindings namedPortBindings ∧
      Evaluator.interpreter openCheck debugBindings = .ok (.bool true) ∧
      Evaluator.interpreter openCheck namedPortBindings = .ok (.bool true) := by
  -- both environments are quiet about the port, so one evaluation stands for both
  have hQuiet : Evaluator.interpreter openCheck quietBindings =
      .error (.expression (.inside (.unknownVariable "port") "debug or port > 80")) := rfl
  have hDebug : Evaluator.interpreter openCheck debugBindings = .ok (.bool true) := rfl
  -- the other two answers follow without evaluating again
  obtain ⟨-, hSame⟩ :=
    (late_binding_monotone openCheck quietBindings hostBindings).1 openCheck_agreeOn
  obtain ⟨-, hStays⟩ := (late_binding_monotone openCheck debugBindings namedPortBindings).2
    debugBindings_extendedTo (.bool true)
  exact ⟨openCheck_agreeOn, hQuiet, hSame.symm.trans hQuiet, debugBindings_extendedTo, hDebug,
    hStays hDebug⟩

end TypedConfig.Evaluation
