import TypedConfig.Value.Text

/-!
# Scalars

A scalar is a text, a whole number, a floating point number or a truth value that has been read
under one of the four scalar kinds.
-/

namespace TypedConfig

/-- What a scalar is read as. -/
inductive ScalarKind where
  | string
  | long
  | double
  | boolean
deriving DecidableEq, Repr

/-- The native type that represents a kind. -/
def ScalarKind.native : ScalarKind → String
  | string => "String"
  | long => "i64"
  | double => "f64"
  | boolean => "bool"

/-- The kind's own name. -/
def ScalarKind.name : ScalarKind → String
  | string => "String"
  | long => "Long"
  | double => "Double"
  | boolean => "Boolean"

/-- A value read under a scalar kind. -/
inductive Scalar where
  | string (s : String)
  | long (n : Long)
  | double (x : Float)
  | boolean (b : Bool)

namespace Scalar

/-- The kind a scalar was read under. -/
def kind : Scalar → ScalarKind
  | string _ => .string
  | long _ => .long
  | double _ => .double
  | boolean _ => .boolean

/-- The scalar as a value. -/
def toValue : Scalar → Value
  | string s => .string s
  | long n => .long n
  | double x => .double x
  | boolean b => .bool b

/-- The text of a scalar is that of its value. -/
def text (s : Scalar) : String :=
  s.toValue.text

/-- The text of a scalar that names its kind and quotes its text. -/
def inspect : Scalar → String
  | string s => applied "String" [Text.quote s]
  | long n => applied "Long" [Long.text n]
  | double x => applied "Double" [Double.detailed x]
  | boolean b => applied "Boolean" [boolText b]

/-- Equality of scalars; floating point numbers compare as numbers. -/
def equal : Scalar → Scalar → Bool
  | string a, string b => a == b
  | long a, long b => a == b
  | double a, double b => a == b
  | boolean a, boolean b => a == b
  | _, _ => false

instance : BEq Scalar := ⟨equal⟩

end Scalar

end TypedConfig
