import TypedConfig.Dict
import TypedConfig.Number.Long

/-!
# Configuration values

A configuration tree consists of values: null, truth values, whole and floating point numbers,
texts, deferred expressions, lists, sets and maps. An expression is kept with the text it was read
from and is never a container itself, but containers may hold expressions.

Equality of values is the one the configuration language uses: expressions are equal when their
texts are, floating point numbers compare as numbers, so no value with a NaN in it equals itself.
-/

namespace TypedConfig

/-- Operators in front of one operand. -/
inductive UnaryOperator where
  | negate
  | not
deriving DecidableEq, Repr

/-- Operators between two operands. -/
inductive BinaryOperator where
  | or
  | and
  | eq
  | ne
  | lt
  | le
  | gt
  | ge
  | concat
  | add
  | sub
  | mul
  | div
  | rem
deriving DecidableEq, Repr

mutual

/-- A value of the configuration tree. The entries of a map are in ascending order of their keys. -/
inductive Value where
  | null
  | bool (b : Bool)
  | long (n : Long)
  | double (x : Float)
  | string (s : String)
  | expression (e : Expression)
  | list (items : List Value)
  | set (items : List Value)
  | map (entries : List (String × Value))

/-- A parsed expression that has not been evaluated, with the text it was read from. -/
structure Expression where
  source : String
  root : Node

/-- The syntax tree of an expression. -/
inductive Node where
  | literal (value : Value)
  | variable (name : String)
  | list (items : List Node)
  | unary (operator : UnaryOperator) (operand : Node)
  | binary (operator : BinaryOperator) (left right : Node)

end

instance : Inhabited Value := ⟨.null⟩

/-- The constructors of values, by name. -/
inductive ValueKind where
  | null
  | boolean
  | long
  | double
  | string
  | expression
  | list
  | set
  | map
deriving DecidableEq, Repr

/-- The name of a kind in messages. -/
def ValueKind.name : ValueKind → String
  | null => "null"
  | boolean => "boolean"
  | long => "long"
  | double => "double"
  | string => "string"
  | expression => "expression"
  | list => "list"
  | set => "set"
  | map => "map"

namespace Value

/-- The kind of a value. -/
def kind : Value → ValueKind
  | null => .null
  | bool _ => .boolean
  | long _ => .long
  | double _ => .double
  | string _ => .string
  | expression _ => .expression
  | list _ => .list
  | set _ => .set
  | map _ => .map

/-- The value is null. -/
def isNull : Value → Bool
  | null => true
  | _ => false

/-- The value is a list, a set or a map. -/
def isContainer : Value → Bool
  | list _ | set _ | map _ => true
  | _ => false

/-- The value is a deferred expression. -/
def isExpression : Value → Bool
  | expression _ => true
  | _ => false

/-- The entries of a map. -/
def asMap? : Value → Option (Dict Value)
  | map entries => some entries
  | _ => none

/-- The items of a list or a set, in stored order. -/
def items? : Value → Option (List Value)
  | list items | set items => some items
  | _ => none

mutual

/-- Equality of values: expressions by their texts, floating point numbers as numbers. -/
def equal : Value → Value → Bool
  | null, null => true
  | bool a, bool b => a == b
  | long a, long b => a == b
  | double a, double b => a == b
  | string a, string b => a == b
  | expression ⟨a, _⟩, expression ⟨b, _⟩ => a == b
  | list a, list b => equalItems a b
  | set a, set b => equalItems a b
  | map a, map b => equalEntries a b
  | _, _ => false
termination_by structural a => a

/-- Equal items in the same order. -/
def equalItems : List Value → List Value → Bool
  | [], [] => true
  | a :: as, b :: bs => equal a b && equalItems as bs
  | _, _ => false
termination_by structural as => as

/-- Equal entries in the same order. -/
def equalEntries : List (String × Value) → List (String × Value) → Bool
  | [], [] => true
  | (k, a) :: as, (l, b) :: bs => k == l && equal a b && equalEntries as bs
  | _, _ => false
termination_by structural as => as

end

instance : BEq Value := ⟨equal⟩

end Value

/-- Keeps the first of every group of elements that `same` calls equal, in their order. -/
def keepFirst (same : α → α → Bool) (items : List α) : List α :=
  items.foldl (fun kept item => if kept.any (same · item) then kept else kept ++ [item]) []

/-- The set of the given values, each kept where it occurs first. -/
def Value.setOf (values : List Value) : Value :=
  .set (keepFirst Value.equal values)

end TypedConfig
