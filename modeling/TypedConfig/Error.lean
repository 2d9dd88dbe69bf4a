import TypedConfig.Path
import TypedConfig.Shape

/-!
# Errors

An error is a cause, below at most the path annotations that were put around it. The wording of
every cause is in `Error.message`. Annotations are added from the inside outwards: `within` puts one
more segment in front of the path of an error, `withinKey` the key of a map in a form that reads
back as one segment.
-/

namespace TypedConfig

/-- What goes wrong while an expression is read or evaluated. -/
inductive ExpressionFault where
  | malformed
  | integerOutOfRange (digits : String)
  | unknownVariable (name : String)
  | overflow
  | divisionByZero
  | notNegatable (kind : ValueKind)
  | incomparable (left right : ValueKind)
  | inapplicable (operator : BinaryOperator) (left right : ValueKind)
  | other (text : String)
  /-- The fault of an expression, with the text the expression was read from. -/
  | inside (fault : ExpressionFault) (source : String)

/-- What goes wrong while a section is mapped. -/
inductive MappingFault where
  | undecidedField
  | selfReference (sectionName field : String)
  | blankKey (path : String)
  | other (text : String)

/-- What goes wrong where the elements of a container have no concrete shape. -/
inductive ElementFault where
  | undecided
  | undecidedIn (shape : Shape)
  | other (text : String)

/-- What goes wrong while a configuration is loaded. -/
inductive ConfigFault where
  | unreadableSource (reason : String)
  | rootNotObject (found : ValueKind)
  | other (text : String)

/-- Why something failed: a cause, or a cause with the path of the value it is about. -/
inductive Error where
  | unsupportedType (name : String)
  | coercion (expected found : String)
  | typeMismatch (expected found : String)
  | noDefaultConstructor (name : String)
  | mapping (fault : MappingFault)
  | genericTypeMissing (fault : ElementFault)
  | expression (fault : ExpressionFault)
  | config (fault : ConfigFault)
  /-- An error together with the path of the value it is about. -/
  | located (path : String) (source : Error)

/-- The wording of a fault of an expression. -/
def ExpressionFault.message : ExpressionFault → String
  | malformed => "<syntax>"
  | integerOutOfRange digits =>
    "Invalid integer '" ++ digits ++ "': number too large to fit in target type"
  | unknownVariable name => "Unknown variable '" ++ name ++ "'"
  | overflow => "Integer overflow"
  | divisionByZero => "Division by zero"
  | notNegatable kind => "Cannot negate a " ++ kind.name
  | incomparable left right => "Cannot compare " ++ left.name ++ " with " ++ right.name
  | inapplicable operator left right =>
    "Cannot apply " ++ operator.name ++ " to " ++ left.name ++ " and " ++ right.name
  | other text => text
  | inside fault source => fault.message ++ " (in '" ++ source ++ "')"

/-- The wording of a fault of a mapping. -/
def MappingFault.message : MappingFault → String
  | undecidedField => "Requesting plain objects is disallowed"
  | selfReference sectionName field =>
    "Sections cannot use self-referencing fields (" ++ sectionName ++ ", " ++ field ++ ")"
  | blankKey path => "Cannot resolve a blank key in '" ++ path ++ "'"
  | other text => text

/-- The wording of a fault of undecided elements. -/
def ElementFault.message : ElementFault → String
  | undecided => "container elements need a concrete shape"
  | undecidedIn shape => "container elements need a concrete shape (" ++ shape.text ++ ")"
  | other text => text

/-- The wording of a fault of loading. -/
def ConfigFault.message : ConfigFault → String
  | unreadableSource reason => reason
  | rootNotObject found => "Expected an object at the configuration root, found " ++ found.name
  | other text => text

namespace Error

/-- The text of an error, with its path if it has one. -/
def message : Error → String
  | unsupportedType name => "Unsupported type: " ++ name
  | coercion expected found => "Cannot coerce " ++ found ++ " into " ++ expected
  | typeMismatch expected found => "Type mismatch: expected " ++ expected ++ ", found " ++ found
  | noDefaultConstructor name => "Please specify a default constructor on " ++ name
  | mapping fault => "Mapping error: " ++ fault.message
  | genericTypeMissing fault => "Missing generic type: " ++ fault.message
  | expression fault => "Expression error: " ++ fault.message
  | config fault => "Config error: " ++ fault.message
  | located path source => source.message ++ " (at path '" ++ path ++ "')"

/-- The path an error was annotated with. -/
def path? : Error → Option String
  | located path _ => some path
  | _ => none

/-- The error below all path annotations. -/
def rootCause : Error → Error
  | located _ source => source.rootCause
  | cause => cause

/-- A path in front of another one; an index in brackets attaches without a dot. -/
def attach (segment path : String) : String :=
  if path.toList.head? = some '[' then segment ++ path else Path.join segment path

/-- Puts one more segment in front of the path of an error. -/
def within (segment : String) (error : Error) : Error :=
  if segment = "" then error
  else
    match error with
    | located path source => located (attach segment path) source
    | cause => located segment cause

/-- A key that would not read back as one segment of a path. -/
def needsQuotes (key : String) : Bool :=
  key = "" || key.toList.any (fun c => c == '.' || c == '[' || c == ']' || c == '"') ||
    Text.trim key ≠ key

/-- The segment that stands for a key of a map, in brackets and quotes where it has to be. -/
def keySegment (key : String) : String :=
  if needsQuotes key then "[" ++ Text.quote key ++ "]" else key

/-- Puts the key of a map in front of the path of an error. -/
def withinKey (key : String) (error : Error) : Error :=
  error.within (keySegment key)

/-- The segment that stands for an index of a list. -/
def indexSegment (index : Nat) : String :=
  "[" ++ String.ofList (Nat.toDigits 10 index) ++ "]"

/-- Puts the index of a list in front of the path of an error. -/
def withinIndex (index : Nat) (error : Error) : Error :=
  error.within (indexSegment index)

end Error

/-- The outcome of a computation that can fail. -/
abbrev Outcome (α : Type u) := Except Error α

end TypedConfig
