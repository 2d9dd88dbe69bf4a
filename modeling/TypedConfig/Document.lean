import TypedConfig.Dict
import TypedConfig.Number.Long

/-!
# Documents

A document is the tree that a configuration is loaded from and written to: null, truth values,
numbers, texts, arrays and objects. A number is a whole one of 64 bits, a whole one above their
range, or a finite floating point number.
-/

namespace TypedConfig

/-- A floating point number that is neither infinite nor NaN. -/
structure FiniteDouble where
  value : Float
  finite : value.isFinite = true

/-- A document. The entries of an object are in ascending order of their keys. -/
inductive Document where
  | null
  | bool (b : Bool)
  | integer (n : Long)
  /-- A whole number from `2 ^ 63` on. -/
  | natural (n : UInt64)
  | decimal (x : FiniteDouble)
  | string (s : String)
  | array (items : List Document)
  | object (entries : List (String × Document))

instance : Inhabited Document := ⟨.null⟩

namespace Document

/-- The number as a document, or null when no document can hold it. -/
def ofDouble (x : Float) : Document :=
  if finite : x.isFinite = true then decimal ⟨x, finite⟩ else null

/-- The entries of an object; any other document has none. -/
def entries : Document → Dict Document
  | object entries => entries
  | _ => []

end Document

end TypedConfig
