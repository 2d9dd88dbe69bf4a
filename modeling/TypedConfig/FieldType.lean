import TypedConfig.Resolved

/-!
# Field types

A field type is built from the native types, sections and custom types, values kept unevaluated, raw
or resolved as they are, and containers of field types. It implies the shape its values are resolved
under, and turns a resolved value back into a typed one. Sets and maps are ordered by their items
and keys and hold no equal ones twice.
-/

namespace TypedConfig

/-- The types of fields. -/
inductive FieldType where
  | native (type : NativeType)
  | list (element : FieldType)
  | set (element : FieldType)
  | map (key value : FieldType)
  /-- An array of a fixed length. -/
  | array (element : FieldType) (length : Nat)
  /-- A field that may stay unassigned. -/
  | optional (type : FieldType)
  | deferred
  | raw
  | any
  | section (name : String)
  | custom (name : String)
deriving DecidableEq, Repr

namespace FieldType

/-- The shape a type implies. -/
def shape : FieldType → Shape
  | native type => .scalar type.kind
  | list element => .list element.shape
  | set element => .set element.shape
  | map key value => .map key.shape value.shape
  | array element _ => .array element.shape
  | optional type => type.shape
  | deferred => .deferred
  | raw => .raw
  | any => .any
  | .section name => .section name
  | custom name => .custom name

/-- The items of a list, a set or an array, for a type that expects one of them. -/
def elements (expected : String) (r : Resolved) : Outcome (List Resolved) :=
  match r.elements? with
  | some items => .ok items
  | none => .error (.typeMismatch expected r.kind.name)

/-- The outcome of two functions on the parts of an entry, the key first. -/
def convertEntry (key value : Resolved → Outcome Typed) (entry : Resolved × Resolved) :
    Outcome (Typed × Typed) :=
  match key entry.1 with
  | .error e => .error e
  | .ok k =>
    match value entry.2 with
    | .error e => .error e
    | .ok v => .ok (k, v)

/-- Turns a resolved value into one of the type. -/
def convert : FieldType → Resolved → Outcome Typed
  | native type, r =>
    match r with
    | .scalar s => (type.ofScalar s).map .native
    | other => .error (.typeMismatch type.name other.kind.name)
  | list element, r =>
    match elements "list" r with
    | .error e => .error e
    | .ok items => (collect element.convert items).map .list
  | set element, r =>
    match elements "set" r with
    | .error e => .error e
    | .ok items =>
      (collect element.convert items).map fun items => .set (sortItems Typed.compare items)
  | map key value, r =>
    match r with
    | .map entries =>
      (collect (convertEntry key.convert value.convert) entries).map fun entries =>
        .map (sortEntries Typed.compare entries)
    | other => .error (.typeMismatch "map" other.kind.name)
  | array element length, r =>
    match elements "array" r with
    | .error e => .error e
    | .ok items =>
      match collect element.convert items with
      | .error e => .error e
      | .ok items =>
        if items.length = length then .ok (.array items)
        else
          .error (.typeMismatch
            ("array of " ++ String.ofList (Nat.toDigits 10 length) ++ " elements")
            (String.ofList (Nat.toDigits 10 items.length) ++ " elements"))
  | optional type, r => (type.convert r).map .present
  | deferred, r =>
    match r with
    | .deferred d => .ok (.deferred d)
    | other => .error (.typeMismatch "evaluable" other.kind.name)
  | raw, r =>
    match r with
    | .raw v => .ok (.raw v)
    | .scalar s => .ok (.raw s.toValue)
    | .deferred d => .ok (.raw d.value)
    | other => .error (.typeMismatch "raw value" other.kind.name)
  | any, r => .ok (.any r)
  | .section name, r =>
    match r with
    | .section i =>
      if i.type = name then .ok (.section i) else .error (.typeMismatch name "another section")
    | other => .error (.typeMismatch name other.kind.name)
  | custom name, r =>
    match r with
    | .custom c =>
      if c.type = name then .ok (.custom c) else .error (.typeMismatch name "another custom type")
    | other => .error (.typeMismatch name other.kind.name)

end FieldType

end TypedConfig
