import TypedConfig.Error

/-!
# Native types

Six native types hold scalars: texts, whole numbers of 64 and 32 bits, floating point numbers of 64
and 32 bits, and truth values. Each is read through one scalar kind; the narrower ones share the
kind of the wider and reject what does not fit.
-/

namespace TypedConfig

/-- The types that hold scalars. -/
inductive NativeType where
  | string
  | long
  | int
  | double
  | single
  | boolean
deriving DecidableEq, Repr

/-- A value of a native type. -/
inductive Native where
  | string (s : String)
  | long (n : Long)
  | int (n : Int32)
  | double (x : Float)
  | single (x : Float32)
  | boolean (b : Bool)

namespace NativeType

/-- The scalar kind a native type is read through. -/
def kind : NativeType → ScalarKind
  | string => .string
  | long | int => .long
  | double | single => .double
  | boolean => .boolean

/-- The name of a type in messages. -/
def name : NativeType → String
  | string => "String"
  | long => "i64"
  | int => "i32"
  | double => "f64"
  | single => "f32"
  | boolean => "bool"

/-- The native type of a name. -/
def ofName? : String → Option NativeType
  | "String" => some string
  | "i64" => some long
  | "i32" => some int
  | "f64" => some double
  | "f32" => some single
  | "bool" => some boolean
  | _ => none

/-- The number, if it fits into 32 bits. -/
def narrow? (n : Long) : Option Int32 :=
  if -2147483648 ≤ n.toInt ∧ n.toInt ≤ 2147483647 then some (Int32.ofInt n.toInt) else none

/-- Turns a scalar of the type's kind into a value of the type. -/
def ofScalar (type : NativeType) (scalar : Scalar) : Outcome Native :=
  match type, scalar with
  | .string, .string s => .ok (.string s)
  | .long, .long n => .ok (.long n)
  | .int, .long n =>
    match narrow? n with
    | some m => .ok (.int m)
    | none => .error (.coercion type.name (Long.text n))
  | .double, .double x => .ok (.double x)
  | .single, .double x =>
    match Double.toSingle? x with
    | some y => .ok (.single y)
    | none => .error (.coercion type.name ("out of range " ++ Double.text x))
  | .boolean, .boolean b => .ok (.boolean b)
  | _, other => .error (.typeMismatch type.name other.kind.native)

end NativeType

/-- The scalar kind registered for the native type of a name. -/
def ScalarKind.ofTypeName (name : String) : Outcome ScalarKind :=
  match NativeType.ofName? name with
  | some type => .ok type.kind
  | none => .error (.unsupportedType name)

namespace Native

/-- The order of native values of one type: texts by code point, false before true. -/
def compare : Native → Native → Ordering
  | string a, string b => Ord.compare a b
  | long a, long b => Ord.compare a.toInt b.toInt
  | int a, int b => Ord.compare a.toInt b.toInt
  | boolean a, boolean b => Ord.compare a b
  | double a, double b => if a < b then .lt else if b < a then .gt else .eq
  | single a, single b => if a < b then .lt else if b < a then .gt else .eq
  | a, b => Ord.compare a.ctorIdx b.ctorIdx

end Native

/-- Puts a key and its value into entries in ascending order, replacing the value of an equal
key. -/
def insertBy (order : α → α → Ordering) (key : α) (value : β) : List (α × β) → List (α × β)
  | [] => [(key, value)]
  | (k, v) :: rest =>
    match order key k with
    | .lt => (key, value) :: (k, v) :: rest
    | .eq => (k, value) :: rest
    | .gt => (k, v) :: insertBy order key value rest

/-- The entries in ascending order of their keys; of equal keys the later value stays. -/
def sortEntries (order : α → α → Ordering) (entries : List (α × β)) : List (α × β) :=
  entries.foldl (fun sorted (key, value) => insertBy order key value sorted) []

/-- The items in ascending order, one of every group of equal ones. -/
def sortItems (order : α → α → Ordering) (items : List α) : List α :=
  (sortEntries order (items.map fun item => (item, ()))).map Prod.fst

end TypedConfig
