import TypedConfig.Proofs.Error.Annotation
import TypedConfig.Proofs.Error.Failing
import TypedConfig.Proofs.Error.Plain
import TypedConfig.Proofs.Relocation

/-!
# Where errors come from

A mapping that fails does so at some field, reached from the store through a chain
of nested sections, or at some value inside that field, reached through items,
entries and the fields of sections that are elements. `origins` says which: it
follows the engine level by level and keeps the path the field was fetched from and
the steps from there on, with no annotation made on the way.

The engine makes annotations instead, while the error passes the fields and
elements it came from. At every level its errors are those of the origins:
`Level.Explained` says so for one level, relative to the root a section is mapped
at, and one more level preserves it. What makes it go through for nested fields is
`Error.within_within`; their paths are joined from the root downwards, and the
annotations are put together from the field upwards.

Main results:

* `Level.Explained.above` — one more level keeps its errors explained.
* `Mapper.fails_iff_origin` — the errors of a mapping, with their paths and causes.
-/

namespace TypedConfig

namespace Mapping

/-! ## Origins of failures -/

/-- Where the runs of a level fail: interpreting a value under a shape, and mapping a
section below a root, from a source if one is given. -/
structure Origins where
  value : Value → Shape → Failure → Prop
  «section» : String → String → Option (Dict Value) → Failure → Prop

/-- The shape of the items of a list, a set or an array. -/
def itemShape? : Shape → Option Shape
  | .list element | .set element | .array element => some element
  | _ => none

/-- What the paths of errors in a section are relative to: the root in the store, and
nothing in a map that was fetched before. -/
def basePath (root : String) (source : Option (Dict Value)) : String :=
  match source with
  | none => root
  | some _ => ""

/-- What an error gets when it passes a field of its section. -/
def passField (field : Field) (e : Error) : Error :=
  if field.inlined then e else e.within field.name

/-- The failure of a field seen from the section it belongs to. In the store it is a
failure at the path the field is fetched from; in a map that was fetched, the field is
one more step, unless it is inlined. -/
def inField (root : String) (source : Option (Dict Value)) (field : Field) (f : Failure) :
    Failure :=
  match source with
  | none => f.readAt (fieldPath root field)
  | some _ => if field.inlined then f else f.below (.field field.name)

/-- The failure of a section that a field is mapped as, seen from the section of the
field. In the store it has the path of the innermost field already. -/
def throughField (source : Option (Dict Value)) (field : Field) (f : Failure) : Failure :=
  match source with
  | none => f
  | some _ => if field.inlined then f else f.below (.field field.name)

section
variable (m : Mapper) (lower : Level) (origins : Origins)

/-- An element of a container fails: no shape is decided for it, it fails under the
shape it is read as, or its converter fails. -/
inductive ElementFails (shape : Shape) (v : Value) : Failure → Prop
  | undecided : shape = .any → ElementFails shape v (.here (.genericTypeMissing .undecided))
  | value {f : Failure} : shape ≠ .any →
      origins.value v (ConverterRegistry.substitute m.converters shape).1 f →
      ElementFails shape v f
  | convert {r : Resolved} {cause : Error} : shape ≠ .any →
      (lower.interpret v (ConverterRegistry.substitute m.converters shape).1).Returns r →
      (applyConverter m (ConverterRegistry.substitute m.converters shape).2 r).Fails cause →
      ElementFails shape v (.here cause)

/-- A value fails under a shape: itself, or at its first item or entry that fails, or as
the tree of a section. -/
inductive ValueFails (v : Value) : Shape → Failure → Prop
  | scalar {kind : ScalarKind} {cause : Error} :
      Deferred.scalar ⟨v, some m.evaluator⟩ kind m.environment = .error cause →
      ValueFails v (.scalar kind) (.here cause)
  | evaluateItems {shape element : Shape} {cause : Error} : itemShape? shape = some element →
      evaluate m v = .error cause → ValueFails v shape (.here cause)
  | item {shape element : Shape} {evaluated : Value} {before after : List Value} {item : Value}
      {f : Failure} : itemShape? shape = some element → evaluate m v = .ok evaluated →
      evaluated.items? = some (before ++ item :: after) →
      (∀ other ∈ before, ∃ r, (convertElement m lower element other).Returns r) →
      ElementFails m lower origins element item f →
      ValueFails v shape (f.below (.index before.length))
  | evaluateEntries {key element : Shape} {cause : Error} : evaluate m v = .error cause →
      ValueFails v (.map key element) (.here cause)
  | entryKey {key element : Shape} {before after : List (String × Value)}
      {entry : String × Value} {f : Failure} :
      evaluate m v = .ok (.map (before ++ entry :: after)) →
      (∀ other ∈ before, ∃ r, (convertEntry m lower key element other).Returns r) →
      ElementFails m lower origins key (.string entry.1) f →
      ValueFails v (.map key element) (f.below (.key entry.1))
  | entryValue {key element : Shape} {before after : List (String × Value)}
      {entry : String × Value} {f : Failure} :
      evaluate m v = .ok (.map (before ++ entry :: after)) →
      (∀ other ∈ before, ∃ r, (convertEntry m lower key element other).Returns r) →
      (∃ k, (convertElement m lower key (.string entry.1)).Returns k) →
      ElementFails m lower origins element entry.2 f →
      ValueFails v (.map key element) (f.below (.key entry.1))
  | «section» {name : String} {f : Failure} :
      origins.section name "" (some (v.asMap?.getD [])) f → ValueFails v (.section name) f
  | custom {name : String} : ValueFails v (.custom name) (.here (.unsupportedType name))

/-- A field fails itself: while its shape is decided, while its value is fetched or
interpreted, while it is converted or while it is assigned. -/
inductive FieldFails (type : SectionType) (root : String) (source : Option (Dict Value))
    (i : Instance) (field : Field) : Failure → Prop
  | decide {cause : Error} : decidedShape type i field = .error cause →
      FieldFails type root source i field (.here cause)
  | fetch {shape : Shape} {cause : Error} : decidedShape type i field = .ok shape →
      Resolution.resolve m.store (fieldPath root field) source = .error cause →
      FieldFails type root source i field (.here cause)
  | value {shape : Shape} {found : Option Value} {f : Failure} :
      decidedShape type i field = .ok shape →
      Resolution.resolve m.store (fieldPath root field) source = .ok found →
      Needed field found →
      (∀ inner, (ConverterRegistry.substitute m.converters shape).1 ≠ .section inner) →
      origins.value (found.getD .null) (ConverterRegistry.substitute m.converters shape).1 f →
      FieldFails type root source i field f
  | convert {shape : Shape} {r : Resolved} {cause : Error} :
      decidedShape type i field = .ok shape →
      (resolveField m lower root source field
        (ConverterRegistry.substitute m.converters shape).1).Returns (some r) →
      (applyConverter m (ConverterRegistry.substitute m.converters shape).2 r).Fails cause →
      FieldFails type root source i field (.here cause)
  | assign {r : Resolved} {cause : Error} :
      (fieldValue m lower type root source i field).Returns (some r) →
      field.type.convert r = .error cause → FieldFails type root source i field (.here cause)

/-- The field is mapped as a section of its own, at the path it is fetched from. -/
def NestsAt (type : SectionType) (root : String) (source : Option (Dict Value)) (i : Instance)
    (field : Field) (inner : String) : Prop :=
  ∃ shape found, decidedShape type i field = .ok shape ∧
    Resolution.resolve m.store (fieldPath root field) source = .ok found ∧
    Needed field found ∧ (ConverterRegistry.substitute m.converters shape).1 = .section inner

/-- Mapping a section gets as far as a field, with the instance that the fields before it
have left. -/
def GetsTo (name root : String) (source : Option (Dict Value)) (i : Instance) (field : Field) :
    Prop :=
  ∃ fields before after, (m.family name).constructible = true ∧
    (m.family name).discover name = .ok fields ∧
    SectionType.mappingOrder fields = before ++ field :: after ∧
    (mapFields m lower (m.family name) root source (.blank name) before).Returns i

/-- A section fails: it cannot be made, one of its fields fails, a section that one of
its fields is mapped as fails, or its own hook does. -/
inductive SectionFails (name root : String) (source : Option (Dict Value)) : Failure → Prop
  | construct : (m.family name).constructible = false →
      SectionFails name root source
        ((Failure.here (.noDefaultConstructor name)).readAt (basePath root source))
  | field {i : Instance} {field : Field} {f : Failure} : GetsTo m lower name root source i field →
      FieldFails m lower origins (m.family name) root source i field f →
      SectionFails name root source (inField root source field f)
  | nested {i : Instance} {field : Field} {inner : String} {f : Failure} :
      GetsTo m lower name root source i field →
      NestsAt m (m.family name) root source i field inner →
      origins.section inner (fieldPath root field) source f →
      SectionFails name root source (throughField source field f)
  | hook {fields : List Field} {i : Instance} {cause : Error} :
      (m.family name).constructible = true → (m.family name).discover name = .ok fields →
      (mapFields m lower (m.family name) root source (.blank name)
        (SectionType.mappingOrder fields)).Returns i →
      (m.family name).afterParsing i (fields.map Field.toFieldSpec) = .error cause →
      SectionFails name root source ((Failure.here cause).readAt (basePath root source))

end

/-- The origins of the failures of every level. -/
def origins (m : Mapper) : Nat → Origins
  | 0 => ⟨fun _ _ _ => False, fun _ _ _ _ => False⟩
  | depth + 1 =>
    ⟨ValueFails m (level m depth) (origins m depth),
      SectionFails m (level m depth) (origins m depth)⟩

/-! ## Plain causes and visible steps -/

/-- The failures have plain causes and visible steps. Only what is read from the store
has a path. -/
structure Origins.Sound (m : Mapper) (origins : Origins) : Prop where
  value : ∀ {v shape f}, origins.value v shape f → f.Sound m.RaisesPlain ∧ f.path = ""
  «section» : ∀ {name root source f}, origins.section name root source f →
    f.Sound m.RaisesPlain ∧ (source ≠ none → f.path = "")

section
variable {m : Mapper} {lower : Level} {origins : Origins}

theorem plain_of_applyConverter (hPlain : m.RaisesPlain) {shape : Shape} {r : Resolved}
    {cause : Error}
    (h : (applyConverter m (ConverterRegistry.substitute m.converters shape).2 r).Fails cause) :
    cause.path? = none := by
  unfold applyConverter at h
  split at h
  · next hConverter =>
    -- only a converter that was given to the mapper can raise an error here
    exact plain_of_substitute hPlain hConverter r cause (Run.fails_ofOutcome.mp h)
  · exact absurd h Run.not_fails_pure

variable (hSound : origins.Sound m)
include hSound

theorem ElementFails.sound {shape : Shape} {v : Value} {f : Failure}
    (h : ElementFails m lower origins shape v f) : f.Sound m.RaisesPlain ∧ f.path = "" := by
  cases h with
  | undecided => exact ⟨.here fun _ => rfl, rfl⟩
  | value _ hValue => exact hSound.value hValue
  | convert _ _ hFails => exact ⟨.here (plain_of_applyConverter · hFails), rfl⟩

/-- Seen from its container, the error of an element is annotated with its place. -/
theorem ElementFails.toError_below {shape : Shape} {v : Value} {f : Failure}
    (h : ElementFails m lower origins shape v f) (step : Step) :
    (f.below step).toError = f.toError.within step.segment :=
  Failure.toError_below (h.sound hSound).2 step

theorem ValueFails.sound {v : Value} {shape : Shape} {f : Failure}
    (h : ValueFails m lower origins v shape f) : f.Sound m.RaisesPlain ∧ f.path = "" := by
  -- by the kind of the failure: it starts here, or it is passed up from below by one step
  cases h with
  | scalar hError =>
    exact ⟨.here fun hPlain => plain_of_scalar hPlain.evaluator _ _ _ hError, rfl⟩
  | evaluateItems _ hError | evaluateEntries hError =>
    exact ⟨.here fun hPlain => plain_evaluate hPlain.evaluator v _ hError, rfl⟩
  | item _ _ _ _ hItem =>
    obtain ⟨hInner, hPath⟩ := hItem.sound hSound
    exact ⟨hInner.below (Step.segment_index_ne_empty _), hPath⟩
  | entryKey _ _ hKey =>
    obtain ⟨hInner, hPath⟩ := hKey.sound hSound
    exact ⟨hInner.below (Step.segment_key_ne_empty _), hPath⟩
  | entryValue _ _ _ hValue =>
    obtain ⟨hInner, hPath⟩ := hValue.sound hSound
    exact ⟨hInner.below (Step.segment_key_ne_empty _), hPath⟩
  -- a section inside a value has a source, so its failures are not read at a path
  | «section» hSection =>
    obtain ⟨hInner, hPath⟩ := hSound.section hSection
    exact ⟨hInner, hPath nofun⟩
  | custom => exact ⟨.here fun _ => rfl, rfl⟩

theorem FieldFails.sound {type : SectionType} {root : String} {source : Option (Dict Value)}
    {i : Instance} {field : Field} {f : Failure}
    (h : FieldFails m lower origins type root source i field f) :
    f.Sound m.RaisesPlain ∧ f.path = "" := by
  -- each of these errors is raised at the field itself, if it is not that of its value
  cases h with
  | decide hError => exact ⟨.here fun _ => plain_decidedShape _ _ _ _ hError, rfl⟩
  | fetch _ hError => exact ⟨.here fun _ => Resolution.plain_resolve _ _ _ _ hError, rfl⟩
  | value _ _ _ _ hValue => exact hSound.value hValue
  | convert _ _ hFails => exact ⟨.here (plain_of_applyConverter · hFails), rfl⟩
  | assign _ hError => exact ⟨.here fun _ => field.type.plain_of_convert _ _ hError, rfl⟩

end

/-- The names of all fields show in paths. -/
def NamesShow (m : Mapper) : Prop :=
  ∀ name, ∀ field ∈ (m.family name).fields, Error.Shows field.name

section
variable {m : Mapper} {lower : Level} {origins : Origins}

/-- A field that is got to has the name of a declared one. -/
theorem GetsTo.shows {name root : String} {source : Option (Dict Value)} {i : Instance}
    {field : Field} (h : GetsTo m lower name root source i field) (hNames : NamesShow m) :
    Error.Shows field.name := by
  obtain ⟨fields, before, after, -, hFields, hOrder, -⟩ := h
  have hMem : field ∈ fields := SectionType.mem_of_mem_mappingOrder (hOrder ▸ by simp)
  obtain ⟨declared, hDeclared, hSame, -⟩ := SectionType.mem_discover hFields hMem
  exact hSame ▸ hNames name declared hDeclared

theorem sound_inField {given : Prop} {root : String} {source : Option (Dict Value)}
    {field : Field} {f : Failure} (hName : Error.Shows field.name)
    (h : f.Sound given ∧ f.path = "") :
    (inField root source field f).Sound given ∧
      (source ≠ none → (inField root source field f).path = "") := by
  unfold inField
  -- without a source the path is put in front; with one, the name is a step if it is not inlined
  split
  · exact ⟨h.1.readAt, fun hSource => absurd rfl hSource⟩
  · split
    · exact ⟨h.1, fun _ => h.2⟩
    · exact ⟨h.1.below hName.ne_empty, fun _ => h.2⟩

theorem sound_throughField {given : Prop} {source : Option (Dict Value)} {field : Field}
    {f : Failure} (hName : Error.Shows field.name)
    (h : f.Sound given ∧ (source ≠ none → f.path = "")) :
    (throughField source field f).Sound given ∧
      (source ≠ none → (throughField source field f).path = "") := by
  -- a failure that comes from the store has its path, and the field adds nothing
  unfold throughField
  split
  · exact h
  · split
    · exact h
    · exact ⟨h.1.below hName.ne_empty, h.2⟩

theorem sound_readAt_basePath {given : Prop} {root : String} {source : Option (Dict Value)}
    {cause : Error} (h : given → cause.path? = none) :
    ((Failure.here cause).readAt (basePath root source)).Sound given ∧
      (source ≠ none → ((Failure.here cause).readAt (basePath root source)).path = "") := by
  refine ⟨(Failure.Sound.here h).readAt, fun hSource => ?_⟩
  cases source with
  | none => exact absurd rfl hSource
  | some source => rfl

theorem SectionFails.sound (hSound : origins.Sound m) (hNames : NamesShow m) {name root : String}
    {source : Option (Dict Value)} {f : Failure}
    (h : SectionFails m lower origins name root source f) :
    f.Sound m.RaisesPlain ∧ (source ≠ none → f.path = "") := by
  -- construction and the last hook fail outside of all fields, at the root alone
  cases h with
  | construct => exact sound_readAt_basePath fun _ => rfl
  | field hGets hFails => exact sound_inField (hGets.shows hNames) (hFails.sound hSound)
  | nested hGets _ hInner => exact sound_throughField (hGets.shows hNames) (hSound.section hInner)
  | hook _ _ _ hError => exact sound_readAt_basePath fun hPlain => hPlain.hook _ _ _ _ hError

end

theorem origins_sound {m : Mapper} (hNames : NamesShow m) (depth : Nat) :
    (origins m depth).Sound m := by
  induction depth with
  | zero => exact ⟨False.elim, False.elim⟩
  | succ depth ih => exact ⟨(·.sound ih), (·.sound ih hNames)⟩

/-! ## One level -/

/-- The errors of a level are those of its origins. Those of a section are taken
relative to the root it is mapped at. -/
structure Level.Explained (m : Mapper) (lower : Level) (origins : Origins) : Prop where
  value : ∀ {v shape e}, (lower.interpret v shape).Fails e ↔
    ∃ f, origins.value v shape f ∧ f.toError = e
  «section» : ∀ {name root source e},
    ((lower.mapSection name root source).mapError (Error.within (basePath root source))).Fails e ↔
      ∃ f, origins.section name root source f ∧ f.toError = e

section
variable {m : Mapper} {lower : Level} {origins : Origins}
variable (hSound : origins.Sound m) (hLower : lower.Explained m origins)
include hLower

theorem convertElement_explained {shape : Shape} {v : Value} {e : Error} :
    (convertElement m lower shape v).Fails e ↔
      ∃ f, ElementFails m lower origins shape v f ∧ f.toError = e := by
  rw [convertElement_fails_iff]
  constructor
  · -- the errors of `convertElement` name the three ways an element fails
    rintro (⟨hAny, rfl⟩ | ⟨hAny, hFails | ⟨r, hReturns, hFails⟩⟩)
    · exact ⟨_, .undecided hAny, Failure.toError_here _⟩
    · obtain ⟨f, hValue, hError⟩ := hLower.value.mp hFails
      exact ⟨f, .value hAny hValue, hError⟩
    · exact ⟨_, .convert hAny hReturns hFails, Failure.toError_here _⟩
  · -- and each of the three raises its error
    rintro ⟨f, hElement, rfl⟩
    cases hElement with
    | undecided hAny => exact .inl ⟨hAny, (Failure.toError_here _).symm⟩
    | value hAny hValue => exact .inr ⟨hAny, .inl (hLower.value.mpr ⟨f, hValue, rfl⟩)⟩
    | convert hAny hReturns hFails =>
      rw [Failure.toError_here]
      exact .inr ⟨hAny, .inr ⟨_, hReturns, hFails⟩⟩

/-- Errors in a map that was fetched before are not relative to anything. -/
theorem mapSection_explained_of_source {name root : String} {source : Dict Value} {e : Error} :
    (lower.mapSection name root (some source)).Fails e ↔
      ∃ f, origins.section name root (some source) f ∧ f.toError = e := by
  rw [← hLower.section, Run.fails_mapError]
  simp [basePath]

include hSound

theorem convertItems_explained {v : Value} {shape element : Shape}
    (hShape : itemShape? shape = some element) {e : Error} :
    (convertItems m lower element v).Fails e ↔
      ∃ f, ValueFails m lower origins v shape f ∧ f.toError = e := by
  unfold convertItems
  rw [Run.fails_bind, Run.fails_ofOutcome]
  simp only [Run.returns_ofOutcome]
  constructor
  · rintro (hError | ⟨evaluated, hEvaluated, hFails⟩)
    · exact ⟨_, .evaluateItems hShape hError, Failure.toError_here e⟩
    · -- only a list or a set has items, and anything else is empty and does not fail
      obtain ⟨items, hItems, hFails⟩ : ∃ items, evaluated.items? = some items ∧
          (convertItemsFrom m lower element 0 items).Fails e := by
        cases evaluated with
        | list items | set items => exact ⟨items, rfl, hFails⟩
        | _ => exact absurd hFails Run.not_fails_pure
      obtain ⟨before, item, after, rfl, hBefore, cause, hCause, rfl⟩ :=
        convertItemsFrom_fails_iff.mp hFails
      obtain ⟨f, hElement, rfl⟩ := (convertElement_explained hLower).mp hCause
      refine ⟨_, .item hShape hEvaluated hItems hBefore hElement, ?_⟩
      -- the item is one step below, and counting starts at zero
      rw [hElement.toError_below hSound, Nat.zero_add]
      rfl
  · rintro ⟨f, hValue, rfl⟩
    cases hValue with
    -- the other ways a value fails are those of other shapes
    | scalar | evaluateEntries | entryKey | entryValue | «section» | custom => cases hShape
    | evaluateItems _ hError =>
      rw [Failure.toError_here]
      exact .inl hError
    | @item _ _ evaluated before after item f hSame hEvaluated hItems hBefore hElement =>
      -- the shape determines the shape of its elements
      cases hShape.symm.trans hSame
      refine .inr ⟨evaluated, hEvaluated, ?_⟩
      have hFails : (convertItemsFrom m lower element 0 (before ++ item :: after)).Fails
          (f.below (.index before.length)).toError := by
        rw [convertItemsFrom_fails_iff]
        refine ⟨before, item, after, rfl, hBefore, f.toError,
          (convertElement_explained hLower).mpr ⟨f, hElement, rfl⟩, ?_⟩
        rw [hElement.toError_below hSound, Nat.zero_add]
        rfl
      -- the items are those of a list or of a set
      cases evaluated with
      | list items | set items =>
        cases hItems
        exact hFails
      | _ => cases hItems

theorem convertEntries_explained {v : Value} {key element : Shape} {e : Error} :
    (convertEntries m lower key element v).Fails e ↔
      ∃ f, ValueFails m lower origins v (.map key element) f ∧ f.toError = e := by
  unfold convertEntries
  rw [Run.fails_bind, Run.fails_ofOutcome]
  simp only [Run.returns_ofOutcome]
  constructor
  · rintro (hError | ⟨evaluated, hEvaluated, hFails⟩)
    · exact ⟨_, .evaluateEntries hError, Failure.toError_here e⟩
    · -- anything but a map has no entries to fail
      cases evaluated with
      | map entries =>
        obtain ⟨before, entry, after, rfl, hBefore, hEntry⟩ := convertEntryList_fails_iff.mp hFails
        -- a key or a value that fails is one step below, under the same key
        rcases convertEntry_fails_iff.mp hEntry with
          ⟨cause, hCause, rfl⟩ | ⟨hKey, cause, hCause, rfl⟩
        · obtain ⟨f, hElement, rfl⟩ := (convertElement_explained hLower).mp hCause
          exact ⟨_, .entryKey hEvaluated hBefore hElement,
            hElement.toError_below hSound (.key entry.1)⟩
        · obtain ⟨f, hElement, rfl⟩ := (convertElement_explained hLower).mp hCause
          exact ⟨_, .entryValue hEvaluated hBefore hKey hElement,
            hElement.toError_below hSound (.key entry.1)⟩
      | _ => exact absurd hFails Run.not_fails_pure
  · rintro ⟨f, hValue, rfl⟩
    -- the other ways a value fails are those of other shapes
    cases hValue with
    | evaluateItems hShape | item hShape => cases hShape
    | evaluateEntries hError =>
      rw [Failure.toError_here]
      exact .inl hError
    | entryKey hEvaluated hBefore hElement =>
      refine .inr ⟨_, hEvaluated, convertEntryList_fails_iff.mpr ⟨_, _, _, rfl, hBefore, ?_⟩⟩
      rw [convertEntry_fails_iff, hElement.toError_below hSound]
      exact .inl ⟨_, (convertElement_explained hLower).mpr ⟨_, hElement, rfl⟩, rfl⟩
    | entryValue hEvaluated hBefore hKey hElement =>
      refine .inr ⟨_, hEvaluated, convertEntryList_fails_iff.mpr ⟨_, _, _, rfl, hBefore, ?_⟩⟩
      rw [convertEntry_fails_iff, hElement.toError_below hSound]
      exact .inr ⟨hKey, _, (convertElement_explained hLower).mpr ⟨_, hElement, rfl⟩, rfl⟩

theorem interpret_explained {v : Value} {shape : Shape} {e : Error} :
    (Mapping.interpret m lower v shape).Fails e ↔
      ∃ f, ValueFails m lower origins v shape f ∧ f.toError = e := by
  -- each shape has its own ways to fail; those of elements are put down to the lemmas above
  cases shape with
  -- these three are kept as they are, whatever the value
  | raw | any | deferred =>
    refine iff_of_false Run.not_fails_pure ?_
    rintro ⟨f, hValue, -⟩
    cases hValue with
    | evaluateItems hShape | item hShape => cases hShape
  | scalar kind =>
    unfold Mapping.interpret
    rw [Run.fails_bind, Run.fails_ofOutcome]
    simp only [Run.not_fails_pure, and_false, exists_false, or_false]
    constructor
    · intro hError
      exact ⟨_, .scalar hError, Failure.toError_here e⟩
    · rintro ⟨f, hValue, rfl⟩
      cases hValue with
      | scalar hError =>
        rw [Failure.toError_here]
        exact hError
      | evaluateItems hShape | item hShape => cases hShape
  | list element | set element | array element =>
    unfold Mapping.interpret
    rw [Run.fails_bind]
    simp only [Run.not_fails_pure, and_false, exists_false, or_false]
    exact convertItems_explained hSound hLower rfl
  | map key element =>
    unfold Mapping.interpret
    rw [Run.fails_bind]
    simp only [Run.not_fails_pure, and_false, exists_false, or_false]
    exact convertEntries_explained hSound hLower
  | «section» name =>
    unfold Mapping.interpret
    rw [Run.fails_bind]
    -- a section in a value is mapped from that value, so nothing is put in front of its errors
    simp only [Run.not_fails_pure, and_false, exists_false, or_false]
    rw [mapSection_explained_of_source hLower]
    constructor
    · rintro ⟨f, hSection, rfl⟩
      exact ⟨f, .section hSection, rfl⟩
    · rintro ⟨f, hValue, rfl⟩
      cases hValue with
      | «section» hSection => exact ⟨f, hSection, rfl⟩
      | evaluateItems hShape | item hShape => cases hShape
  | custom name =>
    unfold Mapping.interpret
    rw [Run.fails_fail]
    constructor
    · rintro rfl
      exact ⟨_, .custom, Failure.toError_here _⟩
    · rintro ⟨f, hValue, rfl⟩
      cases hValue with
      | custom => exact (Failure.toError_here _).symm
      | evaluateItems hShape | item hShape => cases hShape

omit hSound in
/-- A field fails where it is mapped as a section and that fails, or by itself. -/
theorem mapField_explained {type : SectionType} {root : String} {source : Option (Dict Value)}
    {i : Instance} {field : Field} {e : Error} :
    (mapField m lower type root source i field).Fails e ↔
      (∃ inner, NestsAt m type root source i field inner ∧
        (lower.mapSection inner (fieldPath root field) source).Fails e) ∨
      ∃ f, FieldFails m lower origins type root source i field f ∧ f.toError = e := by
  rw [mapField_fails_iff, fieldValue_fails_iff]
  constructor
  · -- where the field fails, from the decision to the assignment
    rintro ((hError | ⟨shape, hShape, hFails | ⟨r, hReturns, hFails⟩⟩) | ⟨r, hReturns, hError⟩)
    · exact .inr ⟨_, .decide hError, Failure.toError_here e⟩
    · rcases resolveField_fails_iff.mp hFails with
        hError | ⟨found, hFound, hNeeded, ⟨inner, hSection, hFails⟩ | ⟨hPlainShape, hFails⟩⟩
      · exact .inr ⟨_, .fetch hShape hError, Failure.toError_here e⟩
      · -- a nested section fails with its own root, which is kept apart
        exact .inl ⟨inner, ⟨shape, found, hShape, hFound, hNeeded, hSection⟩, hFails⟩
      · obtain ⟨f, hValue, rfl⟩ := hLower.value.mp hFails
        exact .inr ⟨f, .value hShape hFound hNeeded hPlainShape hValue, rfl⟩
    · exact .inr ⟨_, .convert hShape hReturns hFails, Failure.toError_here e⟩
    · exact .inr ⟨_, .assign hReturns hError, Failure.toError_here e⟩
  · rintro (⟨inner, ⟨shape, found, hShape, hFound, hNeeded, hSection⟩, hFails⟩ | ⟨f, hField, rfl⟩)
    · exact .inl (.inr ⟨shape, hShape, .inl (resolveField_fails_iff.mpr
        (.inr ⟨found, hFound, hNeeded, .inl ⟨inner, hSection, hFails⟩⟩))⟩)
    · -- and back: each of those makes the field fail
      cases hField with
      | decide hError =>
        rw [Failure.toError_here]
        exact .inl (.inl hError)
      | fetch hShape hError =>
        rw [Failure.toError_here]
        exact .inl (.inr ⟨_, hShape, .inl (resolveField_fails_iff.mpr (.inl hError))⟩)
      | value hShape hFound hNeeded hPlainShape hValue =>
        exact .inl (.inr ⟨_, hShape, .inl (resolveField_fails_iff.mpr (.inr ⟨_, hFound, hNeeded,
          .inr ⟨hPlainShape, hLower.value.mpr ⟨f, hValue, rfl⟩⟩⟩))⟩)
      | convert hShape hReturns hFails =>
        rw [Failure.toError_here]
        exact .inl (.inr ⟨_, hShape, .inr ⟨_, hReturns, hFails⟩⟩)
      | assign hReturns hError =>
        rw [Failure.toError_here]
        exact .inr ⟨_, hReturns, hError⟩

end

/-! ## Passing a field -/

section
variable {root : String} {source : Option (Dict Value)} {field : Field}
variable (hName : Error.Shows field.name)
include hName

/-- On its way to the root, the error of a field in the store gets the path that the field
was fetched from. -/
theorem within_passField (e : Error) :
    Error.within root (passField field e) = Error.within (fieldPath root field) e := by
  unfold passField fieldPath
  split
  · rfl
  · exact Error.within_within hName root e

theorem toError_inField {f : Failure} (h : f.path = "") :
    (inField root source field f).toError =
      Error.within (basePath root source) (passField field f.toError) := by
  -- from the store, the path of the field is put in front in one go; from a source, its name is
  cases source with
  | none =>
    show (f.readAt (fieldPath root field)).toError = Error.within root (passField field f.toError)
    rw [Failure.toError_readAt h, within_passField hName]
  | some source =>
    show Failure.toError (if field.inlined then f else f.below (.field field.name)) =
      Error.within "" (passField field f.toError)
    rw [Error.within_empty, passField]
    -- an inlined field is no step
    split
    · rfl
    · exact Failure.toError_below h _

theorem toError_throughField {f : Failure} {e : Error} (h : source ≠ none → f.path = "")
    (hError : f.toError = Error.within (basePath (fieldPath root field) source) e) :
    (throughField source field f).toError =
      Error.within (basePath root source) (passField field e) := by
  cases source with
  | none =>
    show f.toError = Error.within root (passField field e)
    -- the path of the nested section was put in front already, and it begins with the root
    rw [hError, within_passField hName]
    rfl
  | some source =>
    -- from a source nothing was put in front, so the error is the one that was raised
    have hSame : f.toError = e := hError.trans (Error.within_empty e)
    show Failure.toError (if field.inlined then f else f.below (.field field.name)) =
      Error.within "" (passField field e)
    rw [Error.within_empty, passField, ← hSame]
    split
    · rfl
    · exact Failure.toError_below (h nofun) _

end

section
variable {m : Mapper} {lower : Level} {origins : Origins}
variable (hSound : origins.Sound m) (hLower : lower.Explained m origins)
include hSound hLower

theorem mapLocatedField_explained {type : SectionType} {root : String}
    {source : Option (Dict Value)} {i : Instance} {field : Field}
    (hName : Error.Shows field.name) {e : Error} :
    ((mapLocatedField m lower type root source i field).mapError
        (Error.within (basePath root source))).Fails e ↔
      (∃ inner f, NestsAt m type root source i field inner ∧
        origins.section inner (fieldPath root field) source f ∧
        (throughField source field f).toError = e) ∨
      ∃ f, FieldFails m lower origins type root source i field f ∧
        (inField root source field f).toError = e := by
  -- an error passes the field by its name, unless it is inlined
  have hPasses : (mapLocatedField m lower type root source i field) =
      (mapField m lower type root source i field).mapError (passField field) := rfl
  rw [Run.fails_mapError, hPasses]
  simp only [Run.fails_mapError]
  constructor
  · -- the error comes from a nested section or from the field itself
    rintro ⟨_, ⟨cause, hFails, rfl⟩, rfl⟩
    rcases (mapField_explained hLower).mp hFails with ⟨inner, hNests, hInner⟩ | ⟨f, hField, rfl⟩
    · obtain ⟨f, hSection, hError⟩ :=
        hLower.section.mp (Run.fails_mapError.mpr ⟨cause, hInner, rfl⟩)
      exact .inl ⟨inner, f, hNests, hSection,
        toError_throughField hName (hSound.section hSection).2 hError⟩
    · exact .inr ⟨f, hField, toError_inField hName (hField.sound hSound).2⟩
  · -- and back: the origin determines the error
    rintro (⟨inner, f, hNests, hSection, rfl⟩ | ⟨f, hField, rfl⟩)
    · obtain ⟨cause, hInner, hError⟩ :=
        Run.fails_mapError.mp (hLower.section.mpr ⟨f, hSection, rfl⟩)
      exact ⟨_, ⟨cause, (mapField_explained hLower).mpr (.inl ⟨inner, hNests, hInner⟩), rfl⟩,
        (toError_throughField hName (hSound.section hSection).2 hError.symm).symm⟩
    · exact ⟨_, ⟨_, (mapField_explained hLower).mpr (.inr ⟨f, hField, rfl⟩), rfl⟩,
        (toError_inField hName (hField.sound hSound).2).symm⟩

end

/-- Every section of the family passes discovery. -/
def AllDiscovered (m : Mapper) : Prop :=
  ∀ name, ∃ fields, (m.family name).discover name = .ok fields

section
variable {m : Mapper} {lower : Level} {origins : Origins}
variable (hSound : origins.Sound m) (hLower : lower.Explained m origins)
variable (hNames : NamesShow m) (hDiscovered : AllDiscovered m)
include hSound hLower hNames hDiscovered

theorem mapSection_explained {name root : String} {source : Option (Dict Value)} {e : Error} :
    ((Mapping.mapSection m lower name root source).mapError
        (Error.within (basePath root source))).Fails e ↔
      ∃ f, SectionFails m lower origins name root source f ∧ f.toError = e := by
  rw [Run.fails_mapError]
  constructor
  · rintro ⟨cause, hFails, rfl⟩
    rcases mapSection_fails_iff.mp hFails with
      ⟨hMade, rfl⟩ | ⟨hMade, hError | ⟨fields, hFields, hFails | ⟨i, hReturns, hError⟩⟩⟩
    · -- the section cannot be made
      exact ⟨_, .construct hMade, rfl⟩
    · -- discovery was passed, so it is no error of it
      obtain ⟨fields, hFields⟩ := hDiscovered name
      cases hError.symm.trans hFields
    · obtain ⟨before, field, after, j, hOrder, hBefore, hField⟩ := mapFields_fails_iff.mp hFails
      -- the fields before it were mapped, so the mapping gets to it
      have hGets : GetsTo m lower name root source j field :=
        ⟨fields, before, after, hMade, hFields, hOrder, hBefore⟩
      rcases (mapLocatedField_explained hSound hLower (hGets.shows hNames)).mp
          (Run.fails_mapError.mpr ⟨cause, hField, rfl⟩) with
        ⟨inner, f, hNests, hSection, hError⟩ | ⟨f, hField, hError⟩
      · exact ⟨_, .nested hGets hNests hSection, hError⟩
      · exact ⟨_, .field hGets hField, hError⟩
    · -- everything is mapped, and the last hook fails
      exact ⟨_, .hook hMade hFields hReturns hError, rfl⟩
  · rintro ⟨f, hSection, rfl⟩
    -- a field that fails makes the section fail with the same error
    have hField : ∀ {i field e}, GetsTo m lower name root source i field →
        ((mapLocatedField m lower (m.family name) root source i field).mapError
          (Error.within (basePath root source))).Fails e →
        ∃ cause, (Mapping.mapSection m lower name root source).Fails cause ∧
          Error.within (basePath root source) cause = e := by
      rintro i field e ⟨fields, before, after, hMade, hFields, hOrder, hBefore⟩ hFails
      obtain ⟨cause, hCause, hSame⟩ := Run.fails_mapError.mp hFails
      refine ⟨cause, ?_, hSame⟩
      refine mapSection_fails_iff.mpr (.inr ⟨hMade, .inr ⟨fields, hFields, .inl ?_⟩⟩)
      exact mapFields_fails_iff.mpr ⟨before, field, after, i, hOrder, hBefore, hCause⟩
    cases hSection with
    | construct hMade => exact ⟨_, mapSection_fails_iff.mpr (.inl ⟨hMade, rfl⟩), rfl⟩
    | field hGets hFails =>
      exact hField hGets ((mapLocatedField_explained hSound hLower
        (hGets.shows hNames)).mpr (.inr ⟨_, hFails, rfl⟩))
    | nested hGets hNests hInner =>
      exact hField hGets ((mapLocatedField_explained hSound hLower
        (hGets.shows hNames)).mpr (.inl ⟨_, _, hNests, hInner, rfl⟩))
    | hook hMade hFields hReturns hError =>
      exact ⟨_, mapSection_fails_iff.mpr
        (.inr ⟨hMade, .inr ⟨_, hFields, .inr ⟨_, hReturns, hError⟩⟩⟩), rfl⟩

/-- **One more level keeps its errors explained.** -/
theorem Level.Explained.above : (lower.above m).Explained m
    ⟨ValueFails m lower origins, SectionFails m lower origins⟩ :=
  ⟨interpret_explained hSound hLower,
    mapSection_explained hSound hLower hNames hDiscovered⟩

end

theorem level_explained {m : Mapper} (hNames : NamesShow m) (hDiscovered : AllDiscovered m)
    (depth : Nat) :
    (level m depth).Explained m (origins m depth) := by
  induction depth with
  | zero =>
    -- on the lowest level nothing has failed yet
    refine ⟨iff_of_false Run.not_fails_tooDeep nofun, iff_of_false ?_ nofun⟩
    intro hFails
    obtain ⟨cause, hCause, -⟩ := Run.fails_mapError.mp hFails
    exact Run.not_fails_tooDeep hCause
  | succ depth ih =>
    -- one more level passes on what the level below explains
    exact ih.above (origins_sound hNames depth) hNames hDiscovered

end Mapping

/-! ## Mappings -/

/-- **The path of an error is the path its value was read from.** A mapping fails with
an error exactly when the failure has an origin: the error is then the cause of the
failure, annotated with the steps inside the field from the inside outwards, and at
last with the path the field was fetched from. As long as nothing that is given to the
mapping raises errors with paths of their own, it has one annotation, or none where there
are neither steps nor a path; and below that is the cause as it was raised. -/
theorem Mapper.fails_iff_origin {m : Mapper} (hNames : Mapping.NamesShow m)
    (hDiscovered : Mapping.AllDiscovered m) {depth : Nat} {name : String} {root : Option String}
    {e : Error} :
    (m.mapSection depth name root).Fails e ↔
      ∃ f, (Mapping.origins m depth).section name (root.getD "") none f ∧
        e = Error.within f.path (f.steps.foldr (fun step e => e.within step.segment) f.cause) ∧
        (m.RaisesPlain →
          (e.path? = none ↔ f.steps = [] ∧ f.path = "") ∧
          (e = f.cause ∨ ∃ path, e = .located path f.cause) ∧
          e.rootCause = f.cause ∧ f.cause.path? = none) := by
  have hExplained : (m.mapSection depth name root).Fails e ↔
      ∃ f, (Mapping.origins m depth).section name (root.getD "") none f ∧ f.toError = e :=
    (Mapping.level_explained hNames hDiscovered depth).section
  -- the failure is the same on both sides, and what is said of its error follows from it
  refine hExplained.trans (exists_congr fun f => and_congr_right fun hOrigin => ?_)
  obtain ⟨hSound, -⟩ := (Mapping.origins_sound hNames depth).section hOrigin
  constructor
  · -- soundness gives the shape of the annotation and the cause below it
    rintro rfl
    refine ⟨rfl, fun hPlain => ⟨Failure.path?_toError_eq_none_iff hSound hPlain, ?_,
      Failure.rootCause_toError hSound hPlain, hSound.plain hPlain⟩⟩
    rcases Failure.toError_eq hSound hPlain with ⟨-, -, hCause⟩ | ⟨-, hLocated⟩
    · exact .inl hCause
    · exact .inr hLocated
  · rintro ⟨rfl, -⟩
    rfl

namespace Mapping

/-- An application with a service that takes over the fields of its cluster, which has
lists of servers by name. -/
def appFamily : Family := fun name =>
  if name = "app" then
    { SectionType.plain with fields := [.ofType "service" (.section "service")] }
  else if name = "service" then
    { SectionType.plain with
      fields := [{ Field.ofType "cluster" (.section "cluster") with inlined := true }] }
  else if name = "cluster" then
    { SectionType.plain with
      fields := [.ofType "servers" (.map (.native .string) (.list (.section "server")))] }
  else { SectionType.plain with fields := [.ofType "port" (.native .int)] }

/-- The second server has no number for a port. -/
def appMapper : Mapper where
  family := appFamily
  store := .ofRoot [("all", .map [("service", .map [("servers", .map
    [("main.one", .list [.map [("port", .long 80)], .map [("port", .list [])]])])])])]
  evaluator := .interpreter
  converters := none
  environment := []

theorem appMapper_namesShow : NamesShow appMapper := by
  -- one case for each section, with all the names of its fields
  intro name
  show ∀ field ∈ (appFamily name).fields, Error.Shows field.name
  unfold appFamily
  split
  · decide
  · split
    · decide
    · split
      · decide
      · decide

theorem appMapper_discovered : AllDiscovered appMapper := by
  -- one case for each section, and the last one for all other names
  intro name
  show ∃ fields, (appFamily name).discover name = .ok fields
  unfold appFamily
  split
  · next hName =>
    subst hName
    exact ⟨_, rfl⟩
  · split
    · next hName =>
      subst hName
      exact ⟨_, rfl⟩
    · split
      · exact ⟨_, rfl⟩
      · exact ⟨_, rfl⟩

theorem appMapper_raisesPlain : appMapper.RaisesPlain where
  evaluator := Evaluator.interpreter_plain
  converter := nofun
  hook := by
    intro name i specs
    show ((appFamily name).afterParsing i specs).Plain
    unfold appFamily
    split
    · exact .ok _
    · split
      · exact .ok _
      · split
        · exact .ok _
        · exact .ok _

set_option maxRecDepth 1000 in
/-- The error of the second server has its origin in the field that was fetched. -/
theorem appMapper_fails :
    NamesShow appMapper ∧ AllDiscovered appMapper ∧ appMapper.RaisesPlain ∧
      (appMapper.mapSection 8 "app" (some "all")).Fails
        (.located "all.service.servers[\"main.one\"][1].port" (.coercion "i64" "list")) ∧
      ∃ f, (origins appMapper 8).section "app" "all" none f ∧
        f.toError = .located "all.service.servers[\"main.one\"][1].port" (.coercion "i64" "list") ∧
        f.cause = .coercion "i64" "list" := by
  have hFails : (appMapper.mapSection 8 "app" (some "all")).Fails
      (.located "all.service.servers[\"main.one\"][1].port" (.coercion "i64" "list")) := rfl
  -- the error that comes up determines an origin with the cause
  obtain ⟨f, hOrigin, hError, hRest⟩ :=
    (Mapper.fails_iff_origin appMapper_namesShow appMapper_discovered).mp hFails
  obtain ⟨-, -, hCause, -⟩ := hRest appMapper_raisesPlain
  exact ⟨appMapper_namesShow, appMapper_discovered, appMapper_raisesPlain, hFails, f, hOrigin,
    hError.symm, hCause.symm⟩

end Mapping

end TypedConfig
