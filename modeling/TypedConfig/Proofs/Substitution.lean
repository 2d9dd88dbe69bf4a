import TypedConfig.Proofs.Registrations
import TypedConfig.Proofs.Run

/-!
# Converters that change nothing

The engine asks its registry in two places, for the shape of a field and for that of an
element of a container, and all it gets to see is the substitution: the shape to read
instead, and the converter to apply then. So two registries that substitute alike make
the same mappings, with the same errors, whatever else they know.

A converter that returns what it is given, for a shape that is read as itself, makes no
substitution that can be noticed. A table that holds only such converters substitutes like
no registry at all, however they came in and however often they replaced one another.

Main results:

* `level_of_alike` — the engine sees nothing of a registry but its substitutions.
* `ConverterTable.alike_none` — neutral registrations substitute like no registry.
* `Mapper.mapSection_neutral` — mapping with them is mapping without converters.
-/

namespace TypedConfig

/-- The mapper, with other converters. -/
def Mapper.convertingBy (m : Mapper) (registry : Option ConverterRegistry) : Mapper :=
  { m with converters := registry }

namespace Mapping

/-- The registries substitute alike: every shape is read as the same one, and the outcome
converted to the same. -/
structure ConvertAlike (registry registry' : Option ConverterRegistry) : Prop where
  shape : ∀ shape, (ConverterRegistry.substitute registry shape).1 =
    (ConverterRegistry.substitute registry' shape).1
  converter : ∀ m shape r,
    applyConverter m (ConverterRegistry.substitute registry shape).2 r =
      applyConverter m (ConverterRegistry.substitute registry' shape).2 r

/-! ## What the engine sees of a registry -/

section
variable {m : Mapper} {lower : Level} {registry registry' : Option ConverterRegistry}
  (h : ConvertAlike registry registry')
include h

theorem convertElement_of_alike (shape : Shape) (v : Value) :
    convertElement (m.convertingBy registry) lower shape v =
      convertElement (m.convertingBy registry') lower shape v := by
  unfold convertElement
  by_cases hAny : shape = .any
  · rw [if_pos hAny, if_pos hAny]
  · rw [if_neg hAny, if_neg hAny]
    show lower.interpret v (ConverterRegistry.substitute registry shape).1 >>= _ =
      lower.interpret v (ConverterRegistry.substitute registry' shape).1 >>= _
    -- the same shape is read, and what it is read as is converted alike
    rw [h.shape shape]
    exact congrArg _ (funext fun r => h.converter _ shape r)

theorem convertItemsFrom_of_alike (element : Shape) (items : List Value) (index : Nat) :
    convertItemsFrom (m.convertingBy registry) lower element index items =
      convertItemsFrom (m.convertingBy registry') lower element index items := by
  induction items generalizing index with
  | nil => rfl
  | cons item rest ih =>
    rw [convertItemsFrom, convertItemsFrom, convertElement_of_alike h element item, ih]

theorem convertItems_of_alike (element : Shape) (v : Value) :
    convertItems (m.convertingBy registry) lower element v =
      convertItems (m.convertingBy registry') lower element v := by
  unfold convertItems
  refine congrArg _ (funext fun w => ?_)
  cases w with
  | list items | set items => exact convertItemsFrom_of_alike h element items 0
  | _ => rfl

theorem convertEntryList_of_alike (key element : Shape) (entries : List (String × Value)) :
    convertEntryList (m.convertingBy registry) lower key element entries =
      convertEntryList (m.convertingBy registry') lower key element entries := by
  induction entries with
  | nil => rfl
  | cons entry rest ih =>
    rw [convertEntryList, convertEntryList, convertEntry, convertEntry,
      convertElement_of_alike h key, convertElement_of_alike h element, ih]

theorem convertEntries_of_alike (key element : Shape) (v : Value) :
    convertEntries (m.convertingBy registry) lower key element v =
      convertEntries (m.convertingBy registry') lower key element v := by
  unfold convertEntries
  refine congrArg _ (funext fun w => ?_)
  cases w with
  | map entries => exact convertEntryList_of_alike h key element entries
  | _ => rfl

theorem interpret_of_alike (v : Value) (shape : Shape) :
    interpret (m.convertingBy registry) lower v shape =
      interpret (m.convertingBy registry') lower v shape := by
  cases shape with
  | list element | set element | array element =>
    rw [interpret, interpret, convertItems_of_alike h element v]
  | map key element => rw [interpret, interpret, convertEntries_of_alike h key element v]
  | _ => rfl

theorem fieldValue_of_alike (type : SectionType) (root : String) (source : Option (Dict Value))
    (i : Instance) (field : Field) :
    fieldValue (m.convertingBy registry) lower type root source i field =
      fieldValue (m.convertingBy registry') lower type root source i field := by
  unfold fieldValue
  -- the shape is decided without a look at the registry
  refine congrArg _ (funext fun shape => ?_)
  show resolveField m lower root source field
      (ConverterRegistry.substitute registry shape).1 >>= _ =
    resolveField m lower root source field (ConverterRegistry.substitute registry' shape).1 >>= _
  rw [h.shape shape]
  refine congrArg _ (funext fun resolved => ?_)
  -- a default is not converted
  cases resolved with
  | none => rfl
  | some r => exact congrArg (· >>= fun r => pure (some r)) (h.converter _ shape r)

theorem mapFields_of_alike (type : SectionType) (root : String) (source : Option (Dict Value))
    (i : Instance) (fields : List Field) :
    mapFields (m.convertingBy registry) lower type root source i fields =
      mapFields (m.convertingBy registry') lower type root source i fields := by
  induction fields generalizing i with
  | nil => rfl
  | cons field rest ih =>
    rw [mapFields, mapFields, mapLocatedField, mapLocatedField, mapField, mapField,
      fieldValue_of_alike h]
    exact congrArg _ (funext fun j => ih j)

theorem mapSection_of_alike (name root : String) (source : Option (Dict Value)) :
    mapSection (m.convertingBy registry) lower name root source =
      mapSection (m.convertingBy registry') lower name root source := by
  unfold mapSection
  simp only [mapFields_of_alike h]
  rfl

/-- **The engine sees nothing of a registry but its substitutions.** -/
theorem level_of_alike (depth : Nat) :
    level (m.convertingBy registry) depth = level (m.convertingBy registry') depth := by
  induction depth with
  | zero => rfl
  | succ depth ih =>
    rw [level, level, ih, Level.above, Level.above]
    congr 1
    · funext name root source
      exact mapSection_of_alike h name root source
    · funext v shape
      exact interpret_of_alike h v shape

end

end Mapping

/-! ## Registrations that change nothing -/

/-- The converter returns what it is given, and the target is read as itself. -/
structure Registration.Neutral (r : Registration) : Prop where
  converter : ∀ v evaluator, r.converter v evaluator = .ok v
  required : r.required = none ∨ r.required = some r.target

/-- Neutral registrations substitute like no registry at all. -/
theorem ConverterTable.alike_none {table : ConverterTable}
    (h : ∀ r ∈ table.registrations, r.Neutral) :
    Mapping.ConvertAlike (some table.toRegistry) none := by
  have hSubstitute : ∀ shape,
      (ConverterRegistry.substitute (some table.toRegistry) shape).1 = shape ∧
        ∀ m r, Mapping.applyConverter m
          (ConverterRegistry.substitute (some table.toRegistry) shape).2 r = pure r := by
    intro shape
    unfold ConverterRegistry.substitute toRegistry
    dsimp only
    -- a shape without a registration is left alone
    cases hFind : table.find? shape with
    | none => exact ⟨rfl, fun _ _ => rfl⟩
    | some found =>
      obtain ⟨hMem, hTarget⟩ := of_find?_eq_some hFind
      have hNeutral := h found hMem
      have hConverter : ∀ m r, Mapping.applyConverter m (some found.converter) r = pure r :=
        fun m r => congrArg Run.ofOutcome (hNeutral.converter r m.evaluator)
      rw [Option.map_some, Option.bind_some]
      -- with a required shape or without, the shape stays
      rcases hNeutral.required with hNone | hSome
      · rw [hNone]
        exact ⟨rfl, hConverter⟩
      · rw [hSome, hTarget]
        exact ⟨rfl, hConverter⟩
  exact ⟨fun shape => (hSubstitute shape).1, fun m shape => (hSubstitute shape).2 m⟩

/-- **Converters that change nothing make no difference.** A table knows a converter for every
shape that one was registered for. If all of them return what they are given, and none reads
its shape as another one, then every mapping has the same outcome as without converters, be it
an instance or an error. -/
theorem Mapper.mapSection_neutral (m : Mapper) {registrations : List Registration}
    (h : ∀ r ∈ registrations, r.Neutral) :
    let registry := (ConverterTable.ofList registrations).toRegistry
    (∀ r ∈ registrations, (registry.converterFor r.target).isSome) ∧
      ∀ depth name root, (m.convertingBy (some registry)).mapSection depth name root =
        (m.convertingBy none).mapSection depth name root := by
  constructor
  · intro r hMem
    exact ConverterTable.isSome_converterFor_iff.mpr (ConverterTable.exists_mem_ofList hMem)
  · intro depth name root
    have hAlike := ConverterTable.alike_none (ConverterTable.forall_mem_ofList h)
    rw [Mapper.mapSection, Mapper.mapSection, Mapping.level_of_alike hAlike]

namespace Mapping

/-- A depot with labels, shelves of its own section type, and a field that it decides on. -/
def depotSections : Family := fun name =>
  if name = "depot" then
    { SectionType.plain with
      fields := [.ofType "extra" .any, .ofType "labels" (.set (.native .string)),
        .ofType "shelves" (.map (.native .long) (.section "shelf"))]
      decide := fun _ _ => some (.list (.scalar .long)) }
  else { SectionType.plain with fields := [.ofType "size" (.native .int)] }

def depotMapper : Mapper where
  family := depotSections
  store := .ofRoot
    [("extra", .list [.string "7"]), ("labels", .list [.long 1, .string "1", .null]),
      ("shelves", .map [("1", .map [("size", .long 3)]), ("2", .null)])]
  evaluator := .interpreter
  converters := none
  environment := []

/-- A converter that returns what it is given. -/
def unchanged (shape : Shape) (required : Option Shape) : Registration :=
  ⟨shape, required, fun r _ => .ok r⟩

/-- Such converters for a field, for elements, keys and values, and for a decided shape. One
target is registered twice. -/
def depotRegistrations : List Registration :=
  [unchanged (.scalar .string) none, unchanged (.set (.scalar .string)) none,
    unchanged (.scalar .long) (some (.scalar .long)), unchanged (.section "shelf") none,
    unchanged (.list (.scalar .long)) (some (.list (.scalar .long))),
    unchanged (.scalar .string) (some (.scalar .string))]

theorem depotRegistrations_neutral : ∀ r ∈ depotRegistrations, r.Neutral := by
  have hNone : ∀ shape, (unchanged shape none).Neutral := fun _ => ⟨fun _ _ => rfl, .inl rfl⟩
  have hSelf : ∀ shape, (unchanged shape (some shape)).Neutral :=
    fun _ => ⟨fun _ _ => rfl, .inr rfl⟩
  simp [depotRegistrations, hNone, hSelf]

/-- The depot is the same with its converters. -/
theorem depot_converted :
    (∀ r ∈ depotRegistrations, r.Neutral) ∧
      (depotMapper.convertingBy
          (some (ConverterTable.ofList depotRegistrations).toRegistry)).mapSection 5 "depot" none =
        (depotMapper.convertingBy none).mapSection 5 "depot" none ∧
      (((depotMapper.convertingBy none).mapSection 5 "depot" none).run.map
        (Except.map fun i => i.assigned.map Prod.fst)) =
          some (.ok ["labels", "shelves", "extra"]) :=
  ⟨depotRegistrations_neutral,
    (Mapper.mapSection_neutral depotMapper depotRegistrations_neutral).2 5 "depot" none, rfl⟩

end Mapping

end TypedConfig
