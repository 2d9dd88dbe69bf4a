import TypedConfig.Expression.Evaluation
import TypedConfig.Scalar.Coercion
import TypedConfig.Scalar.Native

/-!
# Deferred values

A deferred value is a raw value together with the evaluator its expressions need. Nothing is
evaluated up front: every typed read evaluates an expression once, against the environment handed to
that read, and interprets the outcome as a scalar, a list, a set or a map of scalars.
-/

namespace TypedConfig

/-- A raw value and the evaluator for its expressions; without one they stay as they are. -/
structure Deferred where
  value : Value
  evaluator : Option Evaluator

/-- The outcome of `f` on every item, in order, up to the first that fails. -/
def collect (f : α → Outcome β) : List α → Outcome (List β)
  | [] => .ok []
  | item :: rest =>
    match f item with
    | .error e => .error e
    | .ok result =>
      match collect f rest with
      | .error e => .error e
      | .ok results => .ok (result :: results)

namespace Deferred

/-- Evaluates an expression; every other value stays as it is. -/
def resolve (d : Deferred) (env : Environment) (input : Value) : Outcome Value :=
  match input, d.evaluator with
  | .expression e, some evaluator => evaluator e env
  | other, _ => .ok other

/-- Reads one value as a scalar. A value of the kind's own representation is taken as it is; any
other is evaluated first, and coerced if it still does not match. -/
def interpret (d : Deferred) (kind : ScalarKind) (env : Environment) (input : Value) :
    Outcome Scalar :=
  match kind.matching? input with
  | some scalar => .ok scalar
  | none =>
    match d.resolve env input with
    | .error e => .error e
    | .ok resolved =>
      match kind.matching? resolved with
      | some scalar => .ok scalar
      | none => kind.coerce resolved

/-- The value itself, a top-level expression evaluated. -/
def rawRead (d : Deferred) (env : Environment) : Outcome Value :=
  d.resolve env d.value

/-- Reads the value as a scalar. -/
def scalar (d : Deferred) (kind : ScalarKind) (env : Environment) : Outcome Scalar :=
  d.interpret kind env d.value

/-- The scalars one item contributes to a list: those of its items when it evaluates to a list or
set, otherwise one. -/
def itemScalars (d : Deferred) (kind : ScalarKind) (env : Environment) (item : Value) :
    Outcome (List Scalar) :=
  match d.resolve env item with
  | .error e => .error e
  | .ok resolved =>
    match resolved.items? with
    | some inner => collect (d.interpret kind env) inner
    | none =>
      match d.interpret kind env resolved with
      | .error e => .error e
      | .ok s => .ok [s]

/-- Reads the value as a list of scalars. A list or set inside it is expanded in place, one level
deep; a value that is no container is read as a single element. -/
def list (d : Deferred) (kind : ScalarKind) (env : Environment) : Outcome (List Scalar) :=
  match d.resolve env d.value with
  | .error e => .error e
  | .ok input =>
    match input.items? with
    | none =>
      match d.interpret kind env input with
      | .error e => .error e
      | .ok s => .ok [s]
    | some items =>
      -- every item is expanded before the next one is evaluated, so the first fault in order wins
      match collect (d.itemScalars kind env) items with
      | .error e => .error e
      | .ok groups => .ok groups.flatten

/-- Reads the value as a list of scalars and keeps the first of equal ones. -/
def set (d : Deferred) (kind : ScalarKind) (env : Environment) : Outcome (List Scalar) :=
  match d.list kind env with
  | .error e => .error e
  | .ok scalars => .ok (keepFirst Scalar.equal scalars)

/-- Reads one entry of a map, its key before its value. -/
def entry (d : Deferred) (key value : ScalarKind) (env : Environment) (e : String × Value) :
    Outcome (Scalar × Scalar) :=
  match d.interpret key env (.string e.1) with
  | .error error => .error error
  | .ok k =>
    match d.interpret value env e.2 with
    | .error error => .error error
    | .ok v => .ok (k, v)

/-- Reads the value as a map of scalars, in ascending order of the keys in the configuration. Null
reads as the empty map. -/
def map (d : Deferred) (key value : ScalarKind) (env : Environment) :
    Outcome (List (Scalar × Scalar)) :=
  match d.resolve env d.value with
  | .error e => .error e
  | .ok .null => .ok []
  | .ok (.map entries) => collect (d.entry key value env) entries
  | .ok other => .error (.typeMismatch "map" other.kind.name)

/-- Reads the value as one value of a native type. -/
def asScalar (d : Deferred) (type : NativeType) (env : Environment) : Outcome Native :=
  match d.scalar type.kind env with
  | .error e => .error e
  | .ok s => type.ofScalar s

/-- Reads the value as a list of values of a native type. -/
def asList (d : Deferred) (type : NativeType) (env : Environment) : Outcome (List Native) :=
  match d.list type.kind env with
  | .error e => .error e
  | .ok scalars => collect type.ofScalar scalars

/-- Reads the value as a set of values of a native type, in ascending order. -/
def asSet (d : Deferred) (type : NativeType) (env : Environment) : Outcome (List Native) :=
  match d.set type.kind env with
  | .error e => .error e
  | .ok scalars =>
    match collect type.ofScalar scalars with
    | .error e => .error e
    | .ok items => .ok (sortItems Native.compare items)

/-- Turns the scalars of an entry into values of native types, the key first. -/
def nativeEntry (key value : NativeType) (e : Scalar × Scalar) : Outcome (Native × Native) :=
  match key.ofScalar e.1 with
  | .error error => .error error
  | .ok k =>
    match value.ofScalar e.2 with
    | .error error => .error error
    | .ok v => .ok (k, v)

/-- Reads the value as a map between native types, in ascending order of its keys; of entries whose
keys are equal after coercion the last one stays. -/
def asMap (d : Deferred) (key value : NativeType) (env : Environment) :
    Outcome (List (Native × Native)) :=
  match d.map key.kind value.kind env with
  | .error e => .error e
  | .ok scalars =>
    match collect (nativeEntry key value) scalars with
    | .error e => .error e
    | .ok entries => .ok (sortEntries Native.compare entries)

/-- Deferred values are equal when their raw values are. -/
def equal (a b : Deferred) : Bool :=
  a.value.equal b.value

/-- The text of the raw value. -/
def text (d : Deferred) : String :=
  d.value.text

/-- The text of a deferred value that names its parts. -/
def inspect (d : Deferred) : String :=
  record "Evaluable" [("value", d.value.inspect)]

end Deferred

end TypedConfig
