import TypedConfig.Scalar

/-!
# Shapes

A shape says how a configuration value is to be read: as a scalar of some kind, as a container with
elements of a shape, as a section or a custom type of some name, unevaluated, raw, or as something
that is decided while mapping. Sections and custom types are told apart by their names.
-/

namespace TypedConfig

/-- How a value is to be read. -/
inductive Shape where
  | scalar (kind : ScalarKind)
  | list (element : Shape)
  | set (element : Shape)
  | map (key value : Shape)
  | array (element : Shape)
  /-- A section type, mapped field by field. -/
  | section (name : String)
  /-- Kept unevaluated, for evaluation against a later environment. -/
  | deferred
  /-- The raw value as it is. -/
  | raw
  /-- Decided for each instance while mapping. -/
  | any
  /-- A type that only a converter produces. -/
  | custom (name : String)
deriving DecidableEq, Repr

namespace Shape

/-- The text of a shape, with type names as they are. -/
def text : Shape → String
  | scalar kind => kind.native
  | list element => "List<" ++ element.text ++ ">"
  | set element => "Set<" ++ element.text ++ ">"
  | map key value => "Map<" ++ key.text ++ ", " ++ value.text ++ ">"
  | array element => "[" ++ element.text ++ "]"
  | .section name => name
  | deferred => "Evaluable"
  | raw => "Raw"
  | any => "Any"
  | custom name => name

/-- The text of a shape that names its constructors. -/
def inspect : Shape → String
  | scalar kind => applied "Scalar" [kind.name]
  | list element => applied "List" [element.inspect]
  | set element => applied "Set" [element.inspect]
  | map key value => applied "Map" [key.inspect, value.inspect]
  | array element => applied "Array" [element.inspect]
  | .section name => applied "Section" [applied "SectionRef" [name]]
  | deferred => "Evaluable"
  | raw => "Raw"
  | any => "Any"
  | custom name => applied "Custom" [name]

/-- The shape is a container that leaves its elements, keys or values undecided, at some depth. -/
def hasUndecidedElements : Shape → Bool
  | list element | set element | array element =>
    element == any || element.hasUndecidedElements
  | map key value =>
    key == any || value == any || key.hasUndecidedElements || value.hasUndecidedElements
  | _ => false

end Shape

end TypedConfig
