import TypedConfig.Proofs.Error.Raised

/-!
# Errors without a path

Paths are put around errors by the engine alone. Reading a scalar, walking a map,
turning a resolved value into a typed one and evaluating an expression raise plain
causes, and `Mapper.RaisesPlain` asks the same of what a mapping is given from
outside: its evaluator, its converters and the hooks of its sections.

Main results:

* `plain_of_scalar` — reading a scalar, with an evaluator that raises plain causes.
* `FieldType.plain_of_convert` — assigning to a type.
* `Evaluator.interpreter_plain` — the interpreter raises plain causes.
-/

namespace TypedConfig

/-- Whatever error the outcome is, it has no path. -/
def Outcome.Plain {α : Type _} (o : Outcome α) : Prop :=
  ∀ e, o = .error e → e.path? = none

theorem Outcome.Plain.ok {α : Type _} (a : α) : Plain (.ok a : Outcome α) :=
  nofun

open Outcome

theorem Error.OfValue.path?_eq_none (e : Error) (h : e.OfValue) : e.path? = none := by
  cases h <;> rfl

/-- The evaluator raises plain causes. -/
def Evaluator.Plain (evaluator : Evaluator) : Prop :=
  ∀ expression env, Outcome.Plain (evaluator expression env)

/-- The interpreter raises plain causes. -/
theorem Evaluator.interpreter_plain : Evaluator.Plain .interpreter :=
  Evaluator.interpreter_raises fun _ => rfl

theorem plain_of_scalar {v : Value} {evaluator : Evaluator} (h : evaluator.Plain)
    (kind : ScalarKind) (env : Environment) :
    Plain (Deferred.scalar ⟨v, some evaluator⟩ kind env) :=
  raises_of_scalar Error.OfValue.path?_eq_none h kind env

/-- Turning a resolved value into one of a type raises plain causes. -/
theorem FieldType.plain_of_convert (type : FieldType) (r : Resolved) : Plain (type.convert r) :=
  (type.raises_of_convert r).mono Error.OfValue.path?_eq_none

theorem Resolution.plain_resolve (store : Store) (path : String) (source : Option (Dict Value)) :
    Plain (Resolution.resolve store path source) :=
  (raises_resolve store path source).mono Error.OfValue.path?_eq_none

/-- What the mapping is given from outside raises plain causes. -/
structure Mapper.RaisesPlain (m : Mapper) : Prop where
  evaluator : m.evaluator.Plain
  converter : ∀ registry, m.converters = some registry → ∀ shape converter,
    registry.converterFor shape = some converter → ∀ r, Plain (converter r m.evaluator)
  hook : ∀ name i specs, Plain ((m.family name).afterParsing i specs)

namespace Mapping

theorem plain_evaluate {m : Mapper} (h : m.evaluator.Plain) (v : Value) : Plain (evaluate m v) :=
  raises_evaluate h v

theorem plain_of_substitute {m : Mapper} (h : m.RaisesPlain) {shape : Shape}
    {converter : Converter}
    (hConverter : (ConverterRegistry.substitute m.converters shape).2 = some converter)
    (r : Resolved) : Plain (converter r m.evaluator) := by
  unfold ConverterRegistry.substitute at hConverter
  split at hConverter
  · cases hConverter
  · next registry hRegistry =>
    -- with a required shape or without one, the converter is the registered one
    refine h.converter registry hRegistry shape converter ?_ r
    split at hConverter
    · next hFor _ => exact hFor.trans hConverter
    · exact hConverter

theorem plain_decidedShape (type : SectionType) (i : Instance) (field : Field) :
    Plain (decidedShape type i field) :=
  (raises_decidedShape type i field).mono Error.OfValue.path?_eq_none

end Mapping

end TypedConfig
