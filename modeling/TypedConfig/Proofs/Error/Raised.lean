import TypedConfig.Proofs.Collect
import TypedConfig.Proofs.Run

/-!
# What can be raised

Reading a scalar, walking a map and assigning to a type raise errors of a few kinds, all of
them about the value or the way to it; `Error.OfValue` lists the kinds. Other errors come from
what is given from outside, the evaluator above all. So that an outcome raises nothing but
errors with some property is shown once, for any property that the errors of values have.

Main results:

* `raises_of_scalar` — reading a scalar.
* `FieldType.raises_of_convert` — assigning to a type, by induction on the type.
* `Resolution.raises_resolve` — resolving a path.
* `Run.Raises.bind` / `Run.Raises.mapError` — sequences and annotations.
-/

namespace TypedConfig

/-- Whatever error the outcome is, it has a property. -/
def Outcome.Raises {α : Type _} (P : Error → Prop) (o : Outcome α) : Prop :=
  ∀ e, o = .error e → P e

namespace Outcome.Raises

variable {α β : Type _} {P Q : Error → Prop}

theorem ok (a : α) : Raises P (.ok a : Outcome α) :=
  nofun

theorem error {e : Error} (h : P e) : Raises P (.error e : Outcome α) := by
  intro e' hSame
  cases hSame
  exact h

theorem map {o : Outcome α} (h : Raises P o) (f : α → β) : Raises P (o.map f) := by
  cases o with
  | ok a => exact ok _
  | error e => exact error (h e rfl)

theorem mono {o : Outcome α} (h : Raises P o) (hWeaker : ∀ e, P e → Q e) : Raises Q o :=
  fun e hError => hWeaker e (h e hError)

end Outcome.Raises

open Outcome

theorem raises_of_collect {α β : Type _} {P : Error → Prop} {f : α → Outcome β} {items : List α}
    (h : ∀ item ∈ items, Raises P (f item)) : Raises P (collect f items) := by
  intro e hError
  obtain ⟨item, hMem, hItem⟩ := exists_of_collect_error hError
  exact h item hMem e hItem

/-- Errors about a value that does not fit, or about the way to it. -/
inductive Error.OfValue : Error → Prop
  | coercion (expected found : String) : OfValue (.coercion expected found)
  | typeMismatch (expected found : String) : OfValue (.typeMismatch expected found)
  | mapping (fault : MappingFault) : OfValue (.mapping fault)

/-! ## Reading scalars -/

namespace ScalarKind

theorem raises_truncateDouble (x : Float) : Raises Error.OfValue (truncateDouble x) := by
  unfold truncateDouble
  split
  · exact .ok _
  · exact .error (.coercion _ _)

theorem raises_coerceLongText (s : String) : Raises Error.OfValue (coerceLongText s) := by
  -- numbers in texts: whole ones are out of range at most, others may not be numbers at all
  unfold coerceLongText
  split
  · split
    · exact .ok _
    · exact .error (.coercion _ _)
  · split
    · split
      · exact raises_truncateDouble _
      · exact .error (.coercion _ _)
    · exact .error (.coercion _ _)

theorem raises_coerceString (v : Value) : Raises Error.OfValue (coerceString v) := by
  unfold coerceString
  split <;> first | exact .ok _ | exact .error (.coercion _ _)

theorem raises_coerceLong (v : Value) : Raises Error.OfValue (coerceLong v) := by
  unfold coerceLong
  split
  -- a double is truncated and a text read; all other values have a number or are refused
  case h_4 =>
    split
    · exact raises_truncateDouble _
    · exact .error (.coercion _ _)
  case h_5 => exact raises_coerceLongText _
  all_goals first | exact .ok _ | exact .error (.coercion _ _)

theorem raises_coerceDouble (v : Value) : Raises Error.OfValue (coerceDouble v) := by
  unfold coerceDouble
  split
  case h_5 =>
    split
    · exact .ok _
    · exact .error (.coercion _ _)
  all_goals first | exact .ok _ | exact .error (.coercion _ _)

theorem raises_coerceBoolean (v : Value) : Raises Error.OfValue (coerceBoolean v) := by
  unfold coerceBoolean
  split
  -- a text may be one of the words for true or false
  case h_5 =>
    split
    · exact .ok _
    · split
      · exact .ok _
      · exact .error (.coercion _ _)
  all_goals first | exact .ok _ | exact .error (.coercion _ _)

theorem raises_coerce (kind : ScalarKind) (v : Value) : Raises Error.OfValue (kind.coerce v) := by
  cases kind with
  | string => exact raises_coerceString v
  | long => exact raises_coerceLong v
  | double => exact raises_coerceDouble v
  | boolean => exact raises_coerceBoolean v

end ScalarKind

/-- Whatever error an expression is evaluated to, it has a property. -/
def Evaluator.Raises (P : Error → Prop) (evaluator : Evaluator) : Prop :=
  ∀ expression env, Outcome.Raises P (evaluator expression env)

/-- The interpreter raises faults of expressions alone. -/
theorem Evaluator.interpreter_raises {P : Error → Prop} (h : ∀ fault, P (.expression fault)) :
    Evaluator.Raises P .interpreter := by
  intro expression env
  unfold Evaluator.interpreter
  split
  · exact .ok _
  · exact .error (h _)

theorem raises_of_scalar {P : Error → Prop} (hValue : ∀ e : Error, e.OfValue → P e) {v : Value}
    {evaluator : Evaluator} (hEvaluator : evaluator.Raises P) (kind : ScalarKind)
    (env : Environment) : Raises P (Deferred.scalar ⟨v, some evaluator⟩ kind env) := by
  unfold Deferred.scalar Deferred.interpret
  split
  · -- a value of the kind already is no error
    exact .ok _
  · split
    · next e hError =>
      -- only an expression is handed to the evaluator
      refine .error ?_
      unfold Deferred.resolve at hError
      split at hError
      · next hSame =>
        cases hSame
        exact hEvaluator _ _ e hError
      · cases hError
    · split
      · exact .ok _
      · exact (ScalarKind.raises_coerce kind _).mono hValue

/-! ## Assigning -/

theorem NativeType.raises_ofScalar (type : NativeType) (s : Scalar) :
    Raises Error.OfValue (type.ofScalar s) := by
  unfold NativeType.ofScalar
  -- the two narrow types have a range, the others only a kind
  split
  case h_3 =>
    split
    · exact .ok _
    · exact .error (.coercion _ _)
  case h_5 =>
    split
    · exact .ok _
    · exact .error (.coercion _ _)
  all_goals first | exact .ok _ | exact .error (.typeMismatch _ _)

namespace FieldType

theorem raises_elements (expected : String) (r : Resolved) :
    Raises Error.OfValue (elements expected r) := by
  unfold elements
  split
  · exact .ok _
  · exact .error (.typeMismatch _ _)

theorem raises_convertEntry {key value : Resolved → Outcome Typed}
    (hKey : ∀ r, Raises Error.OfValue (key r)) (hValue : ∀ r, Raises Error.OfValue (value r))
    (entry : Resolved × Resolved) : Raises Error.OfValue (convertEntry key value entry) := by
  unfold convertEntry
  -- the key is converted first
  split
  · next e hError => exact .error (hKey _ e hError)
  · split
    · next e hError => exact .error (hValue _ e hError)
    · exact .ok _

/-- Turning a resolved value into one of a type raises errors of the value. -/
theorem raises_of_convert (type : FieldType) (r : Resolved) :
    Raises Error.OfValue (type.convert r) := by
  -- by the constructors of the type: an error is that of an item, or one over the kind
  induction type generalizing r with
  | native type =>
    unfold convert
    split
    · exact (type.raises_ofScalar _).map _
    · exact .error (.typeMismatch _ _)
  | list element ih | set element ih =>
    unfold convert
    split
    · next e hError => exact .error (raises_elements _ _ e hError)
    · exact (raises_of_collect fun item _ => ih item).map _
  | array element length ih =>
    unfold convert
    split
    · next e hError => exact .error (raises_elements _ _ e hError)
    · -- an array is not converted unless all its items are
      split
      · next e hError => exact .error (raises_of_collect (fun item _ => ih item) e hError)
      · split
        · exact .ok _
        · exact .error (.typeMismatch _ _)
  | map key value ihKey ihValue =>
    unfold convert
    split
    · exact (raises_of_collect fun entry _ => raises_convertEntry ihKey ihValue entry).map _
    · exact .error (.typeMismatch _ _)
  | optional type ih => exact (ih r).map _
  | any => exact .ok _
  | deferred | raw =>
    unfold convert
    split <;> first | exact .ok _ | exact .error (.typeMismatch _ _)
  | «section» name | custom name =>
    unfold convert
    split
    · split
      · exact .ok _
      · exact .error (.typeMismatch _ _)
    · exact .error (.typeMismatch _ _)

end FieldType

/-! ## Mapping -/

theorem Resolution.raises_walk (path : String) (keys : List String) (source : Dict Value) :
    Raises Error.OfValue (Resolution.walk path keys source) := by
  induction keys generalizing source with
  | nil => exact .ok _
  | cons key keys ih =>
    unfold Resolution.walk
    -- a blank key is refused, and only a map is walked into further
    split
    · exact .error (.mapping _)
    · split
      · exact .ok _
      · split
        · exact ih _
        · exact .ok _

theorem Resolution.raises_resolve (store : Store) (path : String) (source : Option (Dict Value)) :
    Raises Error.OfValue (Resolution.resolve store path source) := by
  cases source with
  | none => exact .ok _
  | some source => exact raises_walk _ _ _

namespace Mapping

theorem raises_evaluate {P : Error → Prop} {m : Mapper} (h : m.evaluator.Raises P) (v : Value) :
    Raises P (evaluate m v) := by
  unfold evaluate
  split
  · exact h _ _
  · exact .ok _

theorem raises_decidedShape (type : SectionType) (i : Instance) (field : Field) :
    Raises Error.OfValue (decidedShape type i field) := by
  unfold decidedShape
  split
  · split
    · exact .ok _
    · exact .error (.mapping _)
  · exact .ok _

end Mapping

/-! ## Runs -/

namespace Run

variable {α β : Type _} {P : Error → Prop}

/-- Whatever error the run fails with, it has a property. -/
def Raises (P : Error → Prop) (r : Run α) : Prop :=
  ∀ e, r.Fails e → P e

namespace Raises

theorem pure (a : α) : Raises P (Pure.pure a) :=
  fun _ hFails => absurd hFails not_fails_pure

theorem ofOutcome {o : Outcome α} (h : o.Raises P) : Raises P (Run.ofOutcome o) :=
  fun e hFails => h e (fails_ofOutcome.mp hFails)

theorem fail {e : Error} (h : P e) : Raises P (Run.fail e : Run α) :=
  ofOutcome (.error h)

theorem bind {r : Run α} {f : α → Run β} (h : Raises P r)
    (hRest : ∀ a, r.Returns a → Raises P (f a)) : Raises P (r >>= f) := by
  intro e hFails
  rcases fails_bind.mp hFails with hFails | ⟨a, hReturns, hFails⟩
  · exact h e hFails
  · exact hRest a hReturns e hFails

theorem mapError {r : Run α} (h : Raises P r) {f : Error → Error} (hf : ∀ e, P e → P (f e)) :
    Raises P (r.mapError f) := by
  intro e hFails
  obtain ⟨cause, hCause, rfl⟩ := fails_mapError.mp hFails
  exact hf cause (h cause hCause)

end Raises

end Run

end TypedConfig
