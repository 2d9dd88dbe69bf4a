import TypedConfig.Error
import TypedConfig.Expression.Token

/-!
# Reading expressions

The operators bind, loosest first: `or`, `and`, comparison, `&`, `+ -`, `* / %`, and the unary ones.
All levels but comparison are left-associative; comparisons do not chain. A text that is no
expression is malformed; in one that is, every whole number has to fit into 64 bits.
-/

namespace TypedConfig

namespace Syntax

/-- Reads a syntax tree from the front of a token list and returns what is left. -/
abbrev Reader (α : Type) := List Token → Option (α × List Token)

/-- Reads further operands behind operators of one level and nests them to the left. -/
def chain (level : BinaryOperator → Bool) (operand : Reader Node) :
    Nat → Node → List Token → Option (Node × List Token)
  | fuel + 1, left, .operator op :: rest =>
    if level op then
      match operand rest with
      | some (right, rest) => chain level operand fuel (.binary op left right) rest
      | none => none
    else some (left, .operator op :: rest)
  | _, left, rest => some (left, rest)

/-- One operand, or several with left-associative operators of the level between them. -/
def leftAssociative (level : BinaryOperator → Bool) (operand : Reader Node) : Reader Node :=
  fun tokens =>
    match operand tokens with
    | some (left, rest) => chain level operand rest.length left rest
    | none => none

/-- One operand, or two with an operator of the level between them. -/
def nonAssociative (level : BinaryOperator → Bool) (operand : Reader Node) : Reader Node :=
  fun tokens =>
    match operand tokens with
    | some (left, .operator op :: rest) =>
      if level op then
        match operand rest with
        | some (right, rest) => some (.binary op left right, rest)
        | none => none
      else some (left, .operator op :: rest)
    | other => other

/-- Unary operators in front of an operand; the last one applies first. -/
def unary (operand : Reader Node) : Reader Node
  | .operator .sub :: rest =>
    (unary operand rest).map fun (node, rest) => (.unary .negate node, rest)
  | .not :: rest => (unary operand rest).map fun (node, rest) => (.unary .not node, rest)
  | tokens => operand tokens

/-- The loosest level. -/
def isOr (op : BinaryOperator) : Bool := op == .or

/-- The level of conjunctions. -/
def isAnd (op : BinaryOperator) : Bool := op == .and

/-- The level of comparisons, which do not chain. -/
def isComparison (op : BinaryOperator) : Bool :=
  op == .eq || op == .ne || op == .lt || op == .le || op == .gt || op == .ge

/-- The level of text concatenation. -/
def isConcat (op : BinaryOperator) : Bool := op == .concat

/-- The level of sums and differences. -/
def isAdditive (op : BinaryOperator) : Bool := op == .add || op == .sub

/-- The level of products, quotients and remainders. -/
def isMultiplicative (op : BinaryOperator) : Bool := op == .mul || op == .div || op == .rem

/-- All levels of operators above the primary expressions, loosest first. -/
def levels (primary : Reader Node) : Reader Node :=
  leftAssociative isOr <| leftAssociative isAnd <| nonAssociative isComparison <|
    leftAssociative isConcat <| leftAssociative isAdditive <| leftAssociative isMultiplicative <|
    unary primary

/-- The items behind the first one of a list, up to its closing bracket. -/
def moreItems (item : Reader Node) : Nat → Reader (List Node)
  | fuel + 1, .comma :: rest =>
    match item rest with
    | some (node, rest) => (moreItems item fuel rest).map fun (nodes, rest) => (node :: nodes, rest)
    | none => none
  | _, .closeList :: rest => some ([], rest)
  | _, _ => none

/-- A literal, a variable, a list, or an expression in parentheses; `nested` reads what stands
inside. -/
def primary (nested : Reader Node) : Reader Node
  | .literal value :: rest => some (.literal value, rest)
  | .integer digits :: rest => some (.literal (.long ((Long.ofText? digits).getD 0)), rest)
  | .name name :: rest => some (.variable name, rest)
  | .openGroup :: rest =>
    match nested rest with
    | some (node, .closeGroup :: rest) => some (node, rest)
    | _ => none
  | .openList :: .closeList :: rest => some (.list [], rest)
  | .openList :: rest =>
    match nested rest with
    | some (first, rest) =>
      (moreItems nested rest.length rest).map fun (others, rest) => (.list (first :: others), rest)
    | none => none
  | _ => none

/-- Reads an expression in which parentheses and brackets nest less than `depth` deep. -/
def expression : Nat → Reader Node
  | 0, _ => none
  | depth + 1, tokens => levels (primary (expression depth)) tokens

/-- The first whole number among the tokens that does not fit into 64 bits. -/
def outOfRange? (tokens : List Token) : Option (List Char) :=
  tokens.findSome? fun
    | .integer digits => if (Long.ofText? digits).isNone then some digits else none
    | _ => none

/-- Reads all tokens as one expression. Every level of nesting takes a token, so their number bounds
the depth. -/
def node? (tokens : List Token) : Option Node :=
  match expression (tokens.length + 1) tokens with
  | some (node, []) => some node
  | _ => none

end Syntax

namespace Expression

/-- The expression of a text. A malformed text is reported before a number that is out of range. -/
def parse (source : String) : Outcome Expression :=
  match Token.ofText? source with
  | none => .error (.expression .malformed)
  | some tokens =>
    match Syntax.node? tokens with
    | none => .error (.expression .malformed)
    | some root =>
      -- numbers are checked in the order they are written
      match Syntax.outOfRange? tokens with
      | some digits => .error (.expression (.integerOutOfRange (String.ofList digits)))
      | none => .ok ⟨source, root⟩

end Expression

end TypedConfig
