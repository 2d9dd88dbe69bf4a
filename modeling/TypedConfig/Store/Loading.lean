import TypedConfig.Document
import TypedConfig.Expression.Syntax
import TypedConfig.Store

/-!
# Loading and exporting stores

A store is loaded from a document whose root is an object. A key that ends in the store's marker
holds expressions: the marker is taken off, and the texts of its value are parsed, in arrays as
well. Exporting writes expressions back as their texts, under marked keys.
-/

namespace TypedConfig

/-- The key without the marker, if it ends in one. The empty marker marks nothing. -/
def stripMarker? (marker key : String) : Option String :=
  if marker ≠ "" && marker.toList.isSuffixOf key.toList then
    some (String.ofList (key.toList.take (key.toList.length - marker.toList.length)))
  else none

namespace Document

mutual

/-- The value of a document; `deferred` says that its texts are expressions. -/
def toValue (marker : String) (deferred : Bool) : Document → Outcome Value
  | null => .ok .null
  | bool b => .ok (.bool b)
  | integer n => .ok (.long n)
  | natural n =>
    match Long.ofInt? n.toNat with
    | some n => .ok (.long n)
    | none => .ok (.double n.toFloat)
  | decimal x => .ok (.double x.value)
  | string s =>
    if deferred then
      match Expression.parse s with
      | .ok e => .ok (.expression e)
      | .error e => .error e
    else .ok (.string s)
  | array items =>
    match toValues marker deferred items with
    | .ok values => .ok (.list values)
    | .error e => .error e
  | object entries =>
    match toEntries marker entries [] with
    | .ok entries => .ok (.map entries)
    | .error e => .error e
termination_by structural document => document

/-- The values of the items of an array. -/
def toValues (marker : String) (deferred : Bool) : List Document → Outcome (List Value)
  | [] => .ok []
  | item :: rest =>
    match toValue marker deferred item with
    | .error e => .error e
    | .ok value =>
      match toValues marker deferred rest with
      | .error e => .error e
      | .ok values => .ok (value :: values)
termination_by structural items => items

/-- Adds the entries of an object to a map, one after the other. -/
def toEntries (marker : String) : List (String × Document) → Dict Value → Outcome (Dict Value)
  | [], loaded => .ok loaded
  | (key, document) :: rest, loaded =>
    -- a marked key and the plain one name the same entry, and the later one keeps it
    let stripped := stripMarker? marker key
    match toValue marker stripped.isSome document with
    | .error e => .error e
    | .ok value => toEntries marker rest (loaded.insert (stripped.getD key) value)
termination_by structural entries => entries

end

end Document

namespace Value

/-- A value whose key is marked when it is exported: an expression, or a list with an expression
among its items. -/
def isMarked : Value → Bool
  | expression _ => true
  | list items => items.any isExpression
  | _ => false

/-- The key a value is exported under. -/
def exportKey (marker key : String) (value : Value) : String :=
  if value.isMarked then key ++ marker else key

mutual

/-- The document of a value. -/
def toDocument (marker : String) : Value → Document
  | null => .null
  | bool b => .bool b
  | long n => .integer n
  | double x => .ofDouble x
  | string s => .string s
  | expression ⟨source, _⟩ => .string source
  | list items => .array (toDocuments marker items)
  | set items => .array (toDocuments marker items)
  | map entries => .object (exportEntries marker entries [])
termination_by structural value => value

/-- The documents of the items of a list or a set. -/
def toDocuments (marker : String) : List Value → List Document
  | [] => []
  | value :: rest => toDocument marker value :: toDocuments marker rest
termination_by structural items => items

/-- Adds the entries of a map to an object, one after the other. -/
def exportEntries (marker : String) : List (String × Value) → Dict Document → Dict Document
  | [], exported => exported
  | (key, value) :: rest, exported =>
    exportEntries marker rest
      (exported.insert (exportKey marker key value) (toDocument marker value))
termination_by structural entries => entries

end

end Value

namespace Store

/-- Replaces the tree of the store by that of a document, null standing for the empty one, and
forgets all comments. -/
def load (s : Store) (document : Document) : Outcome Store :=
  match document.toValue s.marker false with
  | .error e => .error e
  | .ok (.map root) => .ok { s with root, comments := [] }
  | .ok .null => .ok { s with root := [], comments := [] }
  | .ok other => .error (.config (.rootNotObject other.kind))

/-- The document of the whole tree. -/
def toDocument (s : Store) : Document :=
  (Value.map s.root).toDocument s.marker

/-- The store of a document, with the default marker. -/
def ofDocument (document : Document) : Outcome Store :=
  empty.load document

/-- The store of a source that another library reads: `read` gives the document of the source, or
its own words for why there is none. -/
def ofSource {σ : Type} (read : σ → Except String Document) (source : σ) : Outcome Store :=
  match read source with
  | .error reason => .error (.config (.unreadableSource reason))
  | .ok document => ofDocument document

end Store

end TypedConfig
