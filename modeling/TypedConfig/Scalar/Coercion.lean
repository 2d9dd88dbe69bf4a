import TypedConfig.Error
import TypedConfig.Text

/-!
# Coercion to scalars

A value is read under a scalar kind either as it is, when it has the kind's own representation, or
by coercion. Null coerces to the kind's zero, truth values and numbers to each other, every scalar
value to its text, and a text to a number or truth value when it is written like one. Containers and
unevaluated expressions coerce to nothing.
-/

namespace TypedConfig

/-- A text between single quotes, as messages show it. -/
def singleQuoted (s : String) : String :=
  "'" ++ s ++ "'"

namespace ScalarKind

/-- The value as a scalar, when it already has the kind's own representation. -/
def matching? (kind : ScalarKind) (value : Value) : Option Scalar :=
  match kind, value with
  | .string, .string s => some (.string s)
  | .long, .long n => some (.long n)
  | .double, .double x => some (.double x)
  | .boolean, .bool b => some (.boolean b)
  | _, _ => none

/-- Texts of whole numbers: an optional sign and decimal digits of any script. -/
def isIntegerText (s : String) : Bool :=
  let (_, digits) := Long.splitSign s.toList
  !digits.isEmpty && digits.all Text.isDecimalDigit

/-- Texts of numbers, with decimal digits of any script. -/
def isDecimalText (s : String) : Bool :=
  (Decimal.scan? Text.isDecimalDigit s.toList).isSome

/-- Texts of scalar values; null is the empty text. -/
def coerceString (value : Value) : Outcome Scalar :=
  match value with
  | .null => .ok (.string "")
  | .bool _ | .long _ | .double _ | .string _ => .ok (.string value.text)
  | other => .error (.coercion "String" other.kind.name)

/-- The whole part of a number, which has to fit into 64 bits. -/
def truncateDouble (x : Float) : Outcome Scalar :=
  match Double.toLong? x with
  | some n => .ok (.long n)
  | none => .error (.coercion "i64" ("out of range " ++ Double.text x))

/-- Whole numbers are read exactly, other numbers lose their fraction. -/
def coerceLongText (s : String) : Outcome Scalar :=
  if isIntegerText s then
    match Long.ofText? s.toList with
    | some n => .ok (.long n)
    | none => .error (.coercion "i64" ("out of range " ++ singleQuoted s))
  else if isDecimalText s then
    match Double.ofText? s.toList with
    | some x => truncateDouble x
    | none => .error (.coercion "i64" (singleQuoted s))
  else .error (.coercion "i64" (singleQuoted s))

/-- Whole numbers, fractions cut off; null is zero. -/
def coerceLong (value : Value) : Outcome Scalar :=
  match value with
  | .null => .ok (.long 0)
  | .bool b => .ok (.long (if b then 1 else 0))
  | .long n => .ok (.long n)
  | .double x => if x.isFinite then truncateDouble x else .error (.coercion "i64" value.kind.name)
  | .string s => coerceLongText (Text.trim s)
  | other => .error (.coercion "i64" other.kind.name)

/-- Floating point numbers; null is zero. -/
def coerceDouble (value : Value) : Outcome Scalar :=
  match value with
  | .null => .ok (.double 0)
  | .bool b => .ok (.double (if b then 1 else 0))
  | .long n => .ok (.double (Double.ofLong n))
  | .double x => .ok (.double x)
  | .string s =>
    match Double.ofText? (Text.trim s).toList with
    | some x => .ok (.double x)
    | none => .error (.coercion "f64" (singleQuoted s))
  | other => .error (.coercion "f64" other.kind.name)

/-- The texts that mean true. -/
def truthyWords : List String := ["true", "yes", "on", "1"]

/-- The texts that mean false. -/
def falsyWords : List String := ["false", "no", "off", "0"]

/-- Truth values: numbers by whether they differ from zero, texts by the words above; null is
false. -/
def coerceBoolean (value : Value) : Outcome Scalar :=
  match value with
  | .null => .ok (.boolean false)
  | .bool b => .ok (.boolean b)
  | .long n => .ok (.boolean (n != 0))
  | .double x => .ok (.boolean (x != 0))
  | .string s =>
    if Text.isWordAmong truthyWords (Text.trim s) then .ok (.boolean true)
    else if Text.isWordAmong falsyWords (Text.trim s) then .ok (.boolean false)
    else .error (.coercion "bool" (singleQuoted s))
  | other => .error (.coercion "bool" other.kind.name)

/-- Reads a value under a kind by coercion. -/
def coerce (kind : ScalarKind) (value : Value) : Outcome Scalar :=
  match kind with
  | .string => coerceString value
  | .long => coerceLong value
  | .double => coerceDouble value
  | .boolean => coerceBoolean value

end ScalarKind

end TypedConfig
