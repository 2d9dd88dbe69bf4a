import TypedConfig.Number.Decimal
import TypedConfig.Value

/-!
# Tokens of expressions

An expression is a sequence of tokens with blanks, tabs and line breaks between them as one likes.
Symbols are read longest first, numbers and words as maximal runs. The tokens of a text are unique,
and a text with anything else in it has none.
-/

namespace TypedConfig

/-- The smallest parts of an expression. -/
inductive Token where
  /-- A decimal, a quoted text, a truth value or null. -/
  | literal (value : Value)
  /-- The digits of a whole number, which may be too large for one. -/
  | integer (digits : List Char)
  | name (name : String)
  | operator (operator : BinaryOperator)
  | not
  | openGroup
  | closeGroup
  | openList
  | closeList
  | comma

namespace Token

/-- The symbols; one that another one begins with stands after it. -/
def symbols : List (List Char × Token) :=
  [(['|', '|'], operator .or), (['&', '&'], operator .and), (['=', '='], operator .eq),
    (['!', '='], operator .ne), (['<', '='], operator .le), (['>', '='], operator .ge),
    (['<'], operator .lt), (['>'], operator .gt), (['&'], operator .concat), (['+'], operator .add),
    (['-'], operator .sub), (['*'], operator .mul), (['/'], operator .div), (['%'], operator .rem),
    (['!'], not), (['('], openGroup), ([')'], closeGroup), (['['], openList), ([']'], closeList),
    ([','], comma)]

/-- The token of a word: a keyword's own one, otherwise a name. -/
def ofWord (word : List Char) : Token :=
  match String.ofList word with
  | "true" => literal (.bool true)
  | "false" => literal (.bool false)
  | "null" => literal .null
  | "and" => operator .and
  | "or" => operator .or
  | "not" => not
  | other => name other

/-- What may stand between tokens. -/
def isSpace (c : Char) : Bool :=
  c == ' ' || c == '\t' || c == '\r' || c == '\n'

/-- What a name or keyword begins with. -/
def isWordStart (c : Char) : Bool :=
  c.isAlpha || c == '_'

/-- What a name or keyword goes on with. -/
def isWordChar (c : Char) : Bool :=
  c.isAlphanum || c == '_'

/-- The character that one after a backslash stands for. -/
def unescape (c : Char) : Char :=
  if c = 'n' then '\n' else if c = 't' then '\t' else c

/-- Reads a quoted text up to its closing quote, from behind the opening one. -/
def scanText? : List Char → Option (List Char × List Char)
  | [] => none
  | '\\' :: [] => none
  | '\\' :: c :: cs => (scanText? cs).map fun (text, rest) => (unescape c :: text, rest)
  | c :: cs =>
    if c = '"' then some ([], cs)
    else (scanText? cs).map fun (text, rest) => (c :: text, rest)

/-- Reads the exponent behind a fraction, if a whole one is there. -/
def scanExponent (cs : List Char) : Option (Bool × List Char) × List Char :=
  match cs with
  | [] => (none, cs)
  | c :: after =>
    let (negative, afterSign) := Long.splitSign after
    let digits := afterSign.takeWhile Char.isDigit
    if (c == 'e' || c == 'E') && !digits.isEmpty then
      (some (negative, digits), afterSign.dropWhile Char.isDigit)
    else (none, cs)

/-- Reads a number from its first digit on; a point belongs to it when a digit follows. -/
def scanNumber (cs : List Char) : Token × List Char :=
  let whole := cs.takeWhile Char.isDigit
  let rest := cs.dropWhile Char.isDigit
  match rest with
  | '.' :: afterPoint =>
    let fraction := afterPoint.takeWhile Char.isDigit
    if fraction.isEmpty then (integer whole, rest)
    else
      let (exponent, rest) := scanExponent (afterPoint.dropWhile Char.isDigit)
      (literal (.double (Decimal.toDouble ⟨false, whole, fraction, exponent⟩)), rest)
  | _ => (integer whole, rest)

/-- Reads one token from a text that does not begin with a space. -/
def scan? (cs : List Char) : Option (Token × List Char) :=
  match symbols.find? fun symbol => symbol.1.isPrefixOf cs with
  | some (symbol, token) => some (token, cs.drop symbol.length)
  | none =>
    match cs with
    | [] => none
    | c :: after =>
      if c = '"' then
        (scanText? after).map fun (text, rest) => (literal (.string (String.ofList text)), rest)
      else if c.isDigit then some (scanNumber cs)
      else if isWordStart c then
        some (ofWord (cs.takeWhile isWordChar), cs.dropWhile isWordChar)
      else none

/-- Reads at most `fuel` tokens; none if something is left that is no token. -/
def scanAll? : Nat → List Char → Option (List Token)
  | 0, cs => if (cs.dropWhile isSpace).isEmpty then some [] else none
  | fuel + 1, cs =>
    match cs.dropWhile isSpace with
    | [] => some []
    | c :: after =>
      match scan? (c :: after) with
      | none => none
      | some (token, rest) => (scanAll? fuel rest).map (token :: ·)

/-- The tokens of a text. Every token takes a character, so the length of the text is fuel
enough. -/
def ofText? (source : String) : Option (List Token) :=
  scanAll? source.toList.length source.toList

end Token

end TypedConfig
