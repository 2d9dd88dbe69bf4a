import TypedConfig.FieldType

/-!
# Sections

A section type lists the fields that are mapped onto its instances and the hooks that take part in
the mapping. It may embed bases: their fields are listed among its own and assigned to an embedded
instance of the base. Discovery goes through the list before anything is mapped, drops ignored
fields, and rejects fields of the section's own shape and containers with undecided elements.
-/

namespace TypedConfig

/-- A field of a section: what it is declared as, the type it is assigned with, and the chain of
bases that it belongs to. -/
structure Field extends FieldSpec where
  type : FieldType
  chain : List String

namespace Field

/-- A field of the section itself, with the shape its type implies and no markers. -/
def ofType (name : String) (type : FieldType) : Field where
  name := name
  shape := type.shape
  always := false
  inlined := false
  ignored := false
  type := type
  chain := []

/-- The field inside an embedded base, which may mark all its fields as always resolved. -/
def lift (base : String) (always : Bool) (field : Field) : Field :=
  { field with always := field.always || always, chain := base :: field.chain }

end Field

/-- The text of a field's declaration that names its parts. -/
def FieldSpec.inspect (field : FieldSpec) : String :=
  record "FieldDescriptor"
    [("name", Text.quote field.name), ("shape", field.shape.inspect),
      ("always", boolText field.always), ("inlined", boolText field.inlined),
      ("ignored", boolText field.ignored)]

/-- A section type. -/
structure SectionType where
  /-- Instances can be made at all. -/
  constructible : Bool
  /-- Every field is resolved even if its path is absent. -/
  always : Bool
  fields : List Field
  /-- Decides the shape of a field that is declared as any, from the instance so far. -/
  decide : Instance → String → Option Shape
  /-- Supplies a value for a field whose resolution came up empty. -/
  defaultFor : Instance → Shape → String → Option Resolved
  /-- Called once every field was processed; it may still change what was assigned. -/
  afterParsing : Instance → List FieldSpec → Outcome Instance

namespace SectionType

/-- A section without fields and hooks. -/
def plain : SectionType where
  constructible := true
  always := false
  fields := []
  decide := fun _ _ => none
  defaultFor := fun _ _ _ => none
  afterParsing := fun i _ => .ok i

/-- The fields of a section as those of a base embedded in another one. -/
def inherited (name : String) (base : SectionType) : List Field :=
  base.fields.map (Field.lift name base.always)

/-- Checks one field of the section of a name. -/
def checkField (name : String) (field : Field) : Outcome Unit :=
  if field.shape = .section name then
    .error (.mapping (.selfReference name field.name))
  else if field.shape.hasUndecidedElements then
    .error (Error.within field.name (.genericTypeMissing (.undecidedIn field.shape)))
  else .ok ()

/-- The fields that take part in mapping the section of a name, in declared order, or the first
fault among them. -/
def discover (name : String) (type : SectionType) : Outcome (List Field) :=
  -- an ignored field may be declared in any way
  collect
    (fun field =>
      match checkField name field with
      | .error e => .error e
      | .ok () => .ok { field with always := field.always || type.always })
    (type.fields.filter fun field => !field.ignored)

/-- The fields in the order they are mapped: those that are decided while mapping come last. -/
def mappingOrder (fields : List Field) : List Field :=
  fields.filter (fun field => field.shape ≠ .any) ++ fields.filter (fun field => field.shape = .any)

end SectionType

/-- A family of section types by their names. -/
abbrev Family := String → SectionType

end TypedConfig
