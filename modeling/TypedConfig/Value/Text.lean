import TypedConfig.Value
import TypedConfig.Number.Decimal
import TypedConfig.Text

/-!
# Texts of values

A value has two texts. `Value.text` is what a reader of the configuration sees: texts as they are,
lists and sets in brackets, maps in braces, expressions as their source. `Value.inspect` names every
constructor and quotes every text, so it tells apart values that look the same.
-/

namespace TypedConfig

/-- The items with a comma and a space between them. -/
def commaSeparated (items : List String) : String :=
  ", ".intercalate items

/-- Items between brackets. -/
def bracketed (items : List String) : String :=
  "[" ++ commaSeparated items ++ "]"

/-- Items between braces. -/
def braced (items : List String) : String :=
  "\x7b" ++ commaSeparated items ++ "\x7d"

/-- The text of a truth value. -/
def boolText (b : Bool) : String :=
  if b then "true" else "false"

/-- A constructor's name in front of its arguments. -/
def applied (name : String) (arguments : List String) : String :=
  name ++ "(" ++ commaSeparated arguments ++ ")"

/-- A structure's name in front of its fields. -/
def record (name : String) (fields : List (String × String)) : String :=
  let parts := fields.map fun (field, text) => field ++ ": " ++ text
  name ++ " \x7b " ++ commaSeparated parts ++ " \x7d"

/-- The name of an operator in messages. -/
def UnaryOperator.name : UnaryOperator → String
  | negate => "Negate"
  | not => "Not"

/-- The name of an operator in messages. -/
def BinaryOperator.name : BinaryOperator → String
  | or => "Or"
  | and => "And"
  | eq => "Eq"
  | ne => "Ne"
  | lt => "Lt"
  | le => "Le"
  | gt => "Gt"
  | ge => "Ge"
  | concat => "Concat"
  | add => "Add"
  | sub => "Sub"
  | mul => "Mul"
  | div => "Div"
  | rem => "Rem"

mutual

/-- The text of a value as a reader of the configuration sees it. -/
def Value.text : Value → String
  | .null => "null"
  | .bool b => boolText b
  | .long n => Long.text n
  | .double x => Double.text x
  | .string s => s
  | .expression ⟨source, _⟩ => source
  | .list items => bracketed (Value.itemTexts items)
  | .set items => bracketed (Value.itemTexts items)
  | .map entries => braced (Value.entryTexts entries)
termination_by structural v => v

/-- The texts of the items of a list or a set. -/
def Value.itemTexts : List Value → List String
  | [] => []
  | v :: rest => v.text :: Value.itemTexts rest
termination_by structural items => items

/-- The entries of a map, each key in front of the text of its value. -/
def Value.entryTexts : List (String × Value) → List String
  | [] => []
  | (key, v) :: rest => (key ++ ": " ++ v.text) :: Value.entryTexts rest
termination_by structural entries => entries

end

mutual

/-- The text of a value that names its constructors and quotes its texts. -/
def Value.inspect : Value → String
  | .null => "Null"
  | .bool b => applied "Bool" [boolText b]
  | .long n => applied "Long" [Long.text n]
  | .double x => applied "Double" [Double.detailed x]
  | .string s => applied "String" [Text.quote s]
  | .expression ⟨source, root⟩ =>
    applied "Expression"
      [record "Expression" [("source", Text.quote source), ("root", root.inspect)]]
  | .list items => applied "List" [bracketed (Value.inspectItems items)]
  | .set items => applied "Set" [bracketed (Value.inspectItems items)]
  | .map entries => applied "Map" [braced (Value.inspectEntries entries)]
termination_by structural v => v

/-- The inspected items of a list or a set. -/
def Value.inspectItems : List Value → List String
  | [] => []
  | v :: rest => v.inspect :: Value.inspectItems rest
termination_by structural items => items

/-- The inspected entries of a map, each with its quoted key. -/
def Value.inspectEntries : List (String × Value) → List String
  | [] => []
  | (key, v) :: rest => (Text.quote key ++ ": " ++ v.inspect) :: Value.inspectEntries rest
termination_by structural entries => entries

/-- The text of a syntax tree that names its constructors. -/
def Node.inspect : Node → String
  | .literal value => applied "Literal" [value.inspect]
  | .variable name => applied "Variable" [Text.quote name]
  | .list items => applied "List" [bracketed (Node.inspectNodes items)]
  | .unary operator operand => applied "Unary" [operator.name, operand.inspect]
  | .binary operator left right => applied "Binary" [operator.name, left.inspect, right.inspect]
termination_by structural n => n

/-- The inspected items of a list in an expression. -/
def Node.inspectNodes : List Node → List String
  | [] => []
  | n :: rest => n.inspect :: Node.inspectNodes rest
termination_by structural nodes => nodes

end

end TypedConfig
