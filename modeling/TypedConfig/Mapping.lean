import TypedConfig.Converter
import TypedConfig.Resolution
import TypedConfig.Section

/-!
# Mapping sections

Mapping makes an instance of a section type and assigns its fields from a configuration tree. A
field's value is fetched from the store or, inside containers, from the map that stands for the
section, then interpreted under the field's shape, converted, replaced by a default when there is
none, and assigned.

Sections may refer to each other, so nothing bounds the nesting in advance. The engine is a tower of
levels, each of which only uses the one below, and a run that needs more levels than there are has
no outcome.
-/

namespace TypedConfig

/-- A computation that fails with an error or, when it nests too deeply, has no outcome at all. -/
abbrev Run := ExceptT Error Option

namespace Run

/-- The run that ends with the given outcome. -/
def ofOutcome (outcome : Outcome α) : Run α :=
  ExceptT.mk (some outcome)

/-- The run that fails. -/
def fail (e : Error) : Run α :=
  ofOutcome (.error e)

/-- The run without an outcome. -/
def tooDeep : Run α :=
  ExceptT.mk none

/-- Changes the error of a run that fails. -/
def mapError (f : Error → Error) (r : Run α) : Run α :=
  ExceptT.mk (r.run.map (Except.mapError f))

end Run

/-- What a mapping draws on: the section types, the store, and the evaluator, converters and
environment that are the same for all sections. -/
structure Mapper where
  family : Family
  store : Store
  evaluator : Evaluator
  converters : Option ConverterRegistry
  environment : Environment

namespace Mapping

/-- The two entries into one level of the engine: mapping the section of a name below a root, from a
source if one is given, and interpreting a value under a shape. -/
structure Level where
  mapSection : String → String → Option (Dict Value) → Run Instance
  interpret : Value → Shape → Run Resolved

/-- The level at which nothing has an outcome. -/
def Level.bottom : Level :=
  ⟨fun _ _ _ => .tooDeep, fun _ _ => .tooDeep⟩

/-! ## Interpreting values -/

/-- Evaluates an expression; every other value stays as it is. -/
def evaluate (m : Mapper) (value : Value) : Outcome Value :=
  match value with
  | .expression e => m.evaluator e m.environment
  | other => .ok other

/-- Applies the converter of a shape, if there is one. -/
def applyConverter (m : Mapper) (converter : Option Converter) (r : Resolved) : Run Resolved :=
  match converter with
  | some converter => .ofOutcome (converter r m.evaluator)
  | none => pure r

/-- Interprets an element of a container under its shape, which has to be concrete. -/
def convertElement (m : Mapper) (lower : Level) (shape : Shape) (value : Value) : Run Resolved :=
  if shape = .any then .fail (.genericTypeMissing .undecided)
  else do
    let (effective, converter) := ConverterRegistry.substitute m.converters shape
    applyConverter m converter (← lower.interpret value effective)

/-- Interprets the items of a list from an index on; an error carries the index of its item. -/
def convertItemsFrom (m : Mapper) (lower : Level) (element : Shape) (index : Nat) :
    List Value → Run (List Resolved)
  | [] => pure []
  | item :: rest => do
    let r ← (convertElement m lower element item).mapError (Error.withinIndex index)
    return r :: (← convertItemsFrom m lower element (index + 1) rest)

/-- Interprets a value as the items of a list; what is neither a list nor a set has none. -/
def convertItems (m : Mapper) (lower : Level) (element : Shape) (value : Value) :
    Run (List Resolved) := do
  match ← Run.ofOutcome (evaluate m value) with
  | .list items | .set items => convertItemsFrom m lower element 0 items
  | _ => return []

/-- Interprets one entry of a map, its key before its value; an error carries the key. -/
def convertEntry (m : Mapper) (lower : Level) (key element : Shape) (entry : String × Value) :
    Run (Resolved × Resolved) := do
  let k ← (convertElement m lower key (.string entry.1)).mapError (Error.withinKey entry.1)
  let v ← (convertElement m lower element entry.2).mapError (Error.withinKey entry.1)
  return (k, v)

/-- Interprets the entries of a map one after the other. -/
def convertEntryList (m : Mapper) (lower : Level) (key element : Shape) :
    List (String × Value) → Run (List (Resolved × Resolved))
  | [] => pure []
  | entry :: rest => do
    let e ← convertEntry m lower key element entry
    return e :: (← convertEntryList m lower key element rest)

/-- Interprets a value as the entries of a map; what is no map has none. -/
def convertEntries (m : Mapper) (lower : Level) (key element : Shape) (value : Value) :
    Run (List (Resolved × Resolved)) := do
  match ← Run.ofOutcome (evaluate m value) with
  | .map entries => convertEntryList m lower key element entries
  | _ => return []

/-- Interprets a fetched value under a shape. A section is mapped from the value itself, as an empty
one when it is no map. -/
def interpret (m : Mapper) (lower : Level) (value : Value) (shape : Shape) : Run Resolved :=
  match shape with
  | .raw | .any => return .raw value
  | .deferred => return .deferred ⟨value, some m.evaluator⟩
  | .scalar kind => do
    let s ← Run.ofOutcome (Deferred.scalar ⟨value, some m.evaluator⟩ kind m.environment)
    return .scalar s
  | .list element => return .list (← convertItems m lower element value)
  | .set element =>
    return .set (keepFirst Resolved.sameValue (← convertItems m lower element value))
  | .array element => return .array (← convertItems m lower element value)
  | .map key element => return .map (← convertEntries m lower key element value)
  -- the value is the tree of the section, so the section starts at its root
  | .section name => return .section (← lower.mapSection name "" (some (value.asMap?.getD [])))
  | .custom name => .fail (.unsupportedType name)

/-! ## Mapping fields -/

/-- The path a field is read from, below the root of its section. -/
def fieldPath (root : String) (field : Field) : String :=
  if field.inlined then root else Path.join root field.name

/-- Resolves a field's value under a shape; none when it is absent or null and the field is not
always resolved. -/
def resolveField (m : Mapper) (lower : Level) (root : String) (source : Option (Dict Value))
    (field : Field) (shape : Shape) : Run (Option Resolved) := do
  let path := fieldPath root field
  let found ← Run.ofOutcome (Resolution.resolve m.store path source)
  let value := found.getD .null
  if value.isNull && !field.always then return none
  match shape with
  -- a section is not mapped from the fetched value: its fields read below the path themselves
  | .section name => return some (.section (← lower.mapSection name path source))
  | _ => return some (← lower.interpret value shape)

/-- The shape of a field, decided by the section's hook if it is declared as any. -/
def decidedShape (type : SectionType) (i : Instance) (field : Field) : Outcome Shape :=
  if field.shape = .any then
    match type.decide i field.name with
    | some shape => .ok shape
    | none => .error (.mapping .undecidedField)
  else .ok field.shape

/-- The value a field is assigned, if any: the converted one that was resolved, otherwise the
default. -/
def fieldValue (m : Mapper) (lower : Level) (type : SectionType) (root : String)
    (source : Option (Dict Value)) (i : Instance) (field : Field) : Run (Option Resolved) := do
  let shape ← Run.ofOutcome (decidedShape type i field)
  let (effective, converter) := ConverterRegistry.substitute m.converters shape
  match ← resolveField m lower root source field effective with
  | some r => return some (← applyConverter m converter r)
  | none => return type.defaultFor i shape field.name

/-- Maps one field of an instance. -/
def mapField (m : Mapper) (lower : Level) (type : SectionType) (root : String)
    (source : Option (Dict Value)) (i : Instance) (field : Field) : Run Instance := do
  match ← fieldValue m lower type root source i field with
  | some r => return i.assign field.chain field.name (← Run.ofOutcome (field.type.convert r))
  | none => return i

/-- Maps one field of an instance; an error carries the field's name, unless the field is
inlined. -/
def mapLocatedField (m : Mapper) (lower : Level) (type : SectionType) (root : String)
    (source : Option (Dict Value)) (i : Instance) (field : Field) : Run Instance :=
  (mapField m lower type root source i field).mapError fun e =>
    if field.inlined then e else e.within field.name

/-- Maps fields one after the other, each seeing what was assigned before. -/
def mapFields (m : Mapper) (lower : Level) (type : SectionType) (root : String)
    (source : Option (Dict Value)) : Instance → List Field → Run Instance
  | i, [] => pure i
  | i, field :: rest => do
    let i ← mapLocatedField m lower type root source i field
    mapFields m lower type root source i rest

/-- Maps the section of a name below a root, from a source if one is given. -/
def mapSection (m : Mapper) (lower : Level) (name root : String) (source : Option (Dict Value)) :
    Run Instance := do
  let type := m.family name
  if !type.constructible then Run.fail (.noDefaultConstructor name)
  else
    let fields ← Run.ofOutcome (type.discover name)
    let i ← mapFields m lower type root source (.blank name) (SectionType.mappingOrder fields)
    -- the hook gets the fields as declared, and has the last word before the instance is complete
    let specs := fields.map Field.toFieldSpec
    return (← Run.ofOutcome (type.afterParsing i specs)).complete name specs

/-! ## The tower -/

/-- The level above another one. -/
def Level.above (m : Mapper) (lower : Level) : Level :=
  ⟨Mapping.mapSection m lower, Mapping.interpret m lower⟩

/-- The level that may nest less than `depth` deep. -/
def level (m : Mapper) : Nat → Level
  | 0 => .bottom
  | depth + 1 => (level m depth).above m

end Mapping

namespace Mapper

/-- Makes an instance of the section of a name from the tree below a root, or from the whole tree.
Errors carry the path of the value they are about. -/
def mapSection (m : Mapper) (depth : Nat) (name : String) (root : Option String) : Run Instance :=
  let root := root.getD ""
  ((Mapping.level m depth).mapSection name root none).mapError (Error.within root)

end Mapper

end TypedConfig
