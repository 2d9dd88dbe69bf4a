import TypedConfig.Resolved

/-!
# Converters

A converter turns a value that was resolved under a required shape into one of the target shape. A
registry is asked for every field and every element of a container. A converter table is a registry
that holds at most one registration for each target.
-/

namespace TypedConfig

/-- Transforms a resolved value; the evaluator is that of the mapping. -/
abbrev Converter := Resolved → Evaluator → Outcome Resolved

/-- What is known about target shapes: the shape they are read as, and the converter to apply
then. -/
structure ConverterRegistry where
  requiredFor : Shape → Option Shape
  converterFor : Shape → Option Converter

namespace ConverterRegistry

/-- The shape to read for a target, and the converter to apply to it. The required shape takes
effect only when there is a converter too. -/
def substitute (registry : Option ConverterRegistry) (shape : Shape) : Shape × Option Converter :=
  match registry with
  | none => (shape, none)
  | some registry =>
    match registry.converterFor shape, registry.requiredFor shape with
    | some converter, some required => (required, some converter)
    | converter, _ => (shape, converter)

end ConverterRegistry

/-- A converter, the target it is registered for, and the shape the target is read as. -/
structure Registration where
  target : Shape
  required : Option Shape
  converter : Converter

/-- Registrations in the order they were made. -/
structure ConverterTable where
  registrations : List Registration

namespace ConverterTable

/-- The table without registrations. -/
def empty : ConverterTable :=
  ⟨[]⟩

/-- Registers a converter, instead of an earlier one for the same target. -/
def register (table : ConverterTable) (registration : Registration) : ConverterTable :=
  ⟨table.registrations.filter (fun r => r.target ≠ registration.target) ++ [registration]⟩

/-- The number of registrations. -/
def size (table : ConverterTable) : Nat :=
  table.registrations.length

/-- The registration of a target. -/
def find? (table : ConverterTable) (target : Shape) : Option Registration :=
  table.registrations.find? fun r => r.target = target

/-- The table as a registry. -/
def toRegistry (table : ConverterTable) : ConverterRegistry where
  requiredFor := fun target => (table.find? target).bind Registration.required
  converterFor := fun target => (table.find? target).map Registration.converter

end ConverterTable

end TypedConfig
