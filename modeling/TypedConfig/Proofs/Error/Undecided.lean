import TypedConfig.Proofs.Error.Cause
import TypedConfig.Proofs.Error.Origin
import TypedConfig.Proofs.Turns

/-!
# Elements without a shape

That the elements of a container have no shape is found in two places. Discovery looks through
the declared shape of a field, at every depth, before anything is mapped, and interpreting an
element refuses it when its own shape is undecided. The second check is never the one that
fails where the first one was passed: a shape is handed down to the elements of a container one
depth at a time, and what holds no undecided elements at any depth still holds none there.
Sections inside of elements start over with fields of their own, which passed discovery as well.
What is decided while mapping is not looked through, so there the decision has to do.

Main results:

* `Shape.hasUndecidedElements_iff` — what discovery looks for.
* `SectionType.discover_fails` — it stops at a field that has undecided elements.
* `Mapping.Level.Decided.above` — a level raises no error of undecided elements if the one
  below does not.
* `Mapper.undecided_elements_discovered` — such elements are found by discovery, and only there.
-/

namespace TypedConfig

/-! ## Shapes -/

namespace Shape

/-- The shapes of the elements of a container, or of its keys and values. -/
def parts : Shape → List Shape
  | list element | set element | array element => [element]
  | map key value => [key, value]
  | _ => []

/-- The second shape is that of the elements, keys or values of a container, which is the first
shape or stands in it at some depth. -/
inductive Contains : Shape → Shape → Prop
  | part {shape inner : Shape} : inner ∈ shape.parts → Contains shape inner
  | deeper {shape part inner : Shape} : part ∈ shape.parts → Contains part inner →
      Contains shape inner

theorem contains_iff {shape inner : Shape} :
    shape.Contains inner ↔ ∃ part ∈ shape.parts, part = inner ∨ part.Contains inner := by
  constructor
  · -- what is inside stands in a part or in a part of it
    intro h
    cases h with
    | part hPart => exact ⟨inner, hPart, .inl rfl⟩
    | deeper hPart hInner => exact ⟨_, hPart, .inr hInner⟩
  · rintro ⟨part, hPart, rfl | hInner⟩
    · exact .part hPart
    · exact .deeper hPart hInner

theorem hasUndecidedElements_iff {shape : Shape} :
    shape.hasUndecidedElements = true ↔ shape.Contains .any := by
  -- only containers have parts
  induction shape with
  | list element ih | set element ih | array element ih =>
    rw [contains_iff]
    simp [hasUndecidedElements, parts, ih]
  | map key value ihKey ihValue =>
    rw [contains_iff]
    simp only [hasUndecidedElements, parts, Bool.or_eq_true, beq_iff_eq, ihKey, ihValue,
      -- key and value can be undecided or have something undecided inside, in any combination
      List.mem_cons, List.not_mem_nil, or_false, exists_eq_or_imp, exists_eq_left]
    rw [or_assoc, or_or_or_comm]
  | _ =>
    rw [contains_iff]
    simp [hasUndecidedElements, parts]

/-- The shape is decided, and in containers the shapes of elements are as well. -/
def Concrete (shape : Shape) : Prop :=
  shape ≠ .any ∧ ¬shape.Contains .any

theorem concrete_of_mem_parts {shape part : Shape} (h : ¬shape.Contains .any)
    (hPart : part ∈ shape.parts) : part.Concrete :=
  ⟨fun hAny => h (.part (hAny ▸ hPart)), fun hInner => h (.deeper hPart hInner)⟩

end Shape

/-! ## Discovery -/

namespace SectionType

variable {type : SectionType} {name : String}

theorem not_contains_any_of_checkField {field : Field} (h : checkField name field = .ok ()) :
    ¬field.shape.Contains .any := by
  rw [← Shape.hasUndecidedElements_iff]
  -- a field that passes is caught by neither test
  unfold checkField at h
  split at h
  · cases h
  · split at h
    · cases h
    · next hElements => exact hElements

/-- What passed discovery has no undecided elements. -/
theorem not_contains_any_of_discover {fields : List Field}
    (h : type.discover name = .ok fields) {field : Field} (hField : field ∈ fields) :
    ¬field.shape.Contains .any := by
  rw [eq_of_discover h] at hField
  obtain ⟨declared, hDeclared, rfl⟩ := List.mem_map.mp hField
  exact not_contains_any_of_checkField (exists_discover_iff.mp ⟨fields, h⟩ declared hDeclared)

/-- **Discovery stops at undecided elements.** Without fields of the section's own shape there is no
other fault, so it fails over a field that has some. -/
theorem discover_fails (hOther : ∀ field ∈ type.considered, field.shape ≠ .section name)
    (hUndecided : ∃ field ∈ type.considered, field.shape.Contains .any) :
    ∃ field ∈ type.considered, field.shape.Contains .any ∧ type.discover name =
      .error (Error.within field.name (.genericTypeMissing (.undecidedIn field.shape))) := by
  cases hDiscover : type.discover name with
  -- a section with a field like that cannot pass
  | ok fields =>
    obtain ⟨field, hField, hContains⟩ := hUndecided
    have hCheck := exists_discover_iff.mp ⟨fields, hDiscover⟩ field hField
    exact absurd hContains (not_contains_any_of_checkField hCheck)
  | error e =>
    rw [discover_eq_collect] at hDiscover
    -- so some field is refused, and of the two tests only that for its elements can fail
    obtain ⟨field, hField, hError⟩ := exists_of_collect_error hDiscover
    rw [discoverField, checkField, if_neg (hOther field hField)] at hError
    split at hError
    · next hElements =>
      cases hError
      exact ⟨field, hField, Shape.hasUndecidedElements_iff.mp hElements, rfl⟩
    · cases hError

end SectionType

/-! ## Errors -/

/-- The error is not about undecided elements, whatever the path it was annotated with. -/
def Error.Decided (e : Error) : Prop :=
  ∀ fault, e.rootCause ≠ .genericTypeMissing fault

theorem Error.OfValue.decided (e : Error) (h : e.OfValue) : e.Decided := by
  cases h <;> exact nofun

theorem Error.Decided.within {e : Error} (h : e.Decided) (segment : String) :
    (e.within segment).Decided := by
  intro fault
  rw [rootCause_within]
  exact h fault

/-- What the mapping is given from outside neither decides on undecided elements nor raises errors
of them, and no converter is in between. -/
structure Mapper.Decided (m : Mapper) : Prop where
  converters : m.converters = none
  decide : ∀ name i field shape, (m.family name).decide i field = some shape →
    ¬shape.Contains .any
  evaluator : m.evaluator.Raises Error.Decided
  hook : ∀ name i specs, ((m.family name).afterParsing i specs).Raises Error.Decided

namespace Mapping

variable {m : Mapper} {lower : Level}

/-- A level raises no errors of undecided elements, as long as it is not asked for any. -/
structure Level.Decided (level : Level) : Prop where
  mapSection : ∀ name root source, (level.mapSection name root source).Raises Error.Decided
  interpret : ∀ v shape, ¬shape.Contains .any → (level.interpret v shape).Raises Error.Decided

/-! ## Interpreting -/

section
variable (h : m.Decided) (hLower : lower.Decided)
include h hLower

theorem decided_convertElement {shape : Shape} (hShape : shape.Concrete) (v : Value) :
    (convertElement m lower shape v).Raises Error.Decided := by
  -- the check for elements is passed, and the shape is not exchanged for another one
  rw [convertElement, if_neg hShape.1, h.converters]
  exact (hLower.interpret v shape hShape.2).bind fun r _ => .pure r

theorem decided_convertItemsFrom {element : Shape} (hElement : element.Concrete) (index : Nat)
    (items : List Value) : (convertItemsFrom m lower element index items).Raises Error.Decided := by
  induction items generalizing index with
  | nil => exact .pure _
  | cons item rest ih =>
    have hItem := decided_convertElement h hLower hElement item
    exact (hItem.mapError fun e hDecided => hDecided.within _).bind fun r _ =>
      (ih (index + 1)).bind fun others _ => .pure _

theorem decided_convertItems {element : Shape} (hElement : element.Concrete) (v : Value) :
    (convertItems m lower element v).Raises Error.Decided := by
  unfold convertItems
  refine .bind (.ofOutcome (raises_evaluate h.evaluator v)) fun evaluated _ => ?_
  split
  · exact decided_convertItemsFrom h hLower hElement 0 _
  · exact decided_convertItemsFrom h hLower hElement 0 _
  · exact .pure _

theorem decided_convertEntry {key element : Shape} (hKey : key.Concrete)
    (hElement : element.Concrete) (entry : String × Value) :
    (convertEntry m lower key element entry).Raises Error.Decided := by
  have hFirst := decided_convertElement h hLower hKey (.string entry.1)
  have hSecond := decided_convertElement h hLower hElement entry.2
  exact (hFirst.mapError fun e hDecided => hDecided.within _).bind fun k _ =>
    (hSecond.mapError fun e hDecided => hDecided.within _).bind fun v _ => .pure _

theorem decided_convertEntryList {key element : Shape} (hKey : key.Concrete)
    (hElement : element.Concrete) (entries : List (String × Value)) :
    (convertEntryList m lower key element entries).Raises Error.Decided := by
  induction entries with
  | nil => exact .pure _
  | cons entry rest ih =>
    exact (decided_convertEntry h hLower hKey hElement entry).bind fun e _ =>
      ih.bind fun others _ => .pure _

theorem decided_convertEntries {key element : Shape} (hKey : key.Concrete)
    (hElement : element.Concrete) (v : Value) :
    (convertEntries m lower key element v).Raises Error.Decided := by
  unfold convertEntries
  refine .bind (.ofOutcome (raises_evaluate h.evaluator v)) fun evaluated _ => ?_
  split
  · exact decided_convertEntryList h hLower hKey hElement _
  · exact .pure _

/-- The shape a value is interpreted under decides on those of its elements. -/
theorem decided_interpret (v : Value) {shape : Shape} (hShape : ¬shape.Contains .any) :
    (interpret m lower v shape).Raises Error.Decided := by
  -- the parts of a shape with nothing undecided inside have a shape, and nothing undecided inside
  have hParts : ∀ {part}, part ∈ shape.parts → part.Concrete :=
    Shape.concrete_of_mem_parts hShape
  cases shape with
  | raw | any | deferred => exact .pure _
  | scalar kind =>
    have hScalar := raises_of_scalar Error.OfValue.decided (v := v) h.evaluator kind m.environment
    exact (Run.Raises.ofOutcome hScalar).bind fun s _ => .pure _
  | list element | set element | array element =>
    exact (decided_convertItems h hLower (hParts (List.mem_singleton_self _)) v).bind
      fun items _ => .pure _
  | map key element =>
    have hKey := hParts (List.mem_cons_self ..)
    have hElement := hParts (List.mem_cons_of_mem _ (List.mem_singleton_self _))
    exact (decided_convertEntries h hLower hKey hElement v).bind fun entries _ => .pure _
  | «section» name => exact (hLower.mapSection name _ _).bind fun i _ => .pure _
  | custom name => exact .fail nofun

end

/-! ## Mapping fields -/

/-- A field's shape has no undecided elements if the declared one has none, whether it is decided
while mapping or not. -/
theorem not_contains_any_of_decidedShape (h : m.Decided) {name : String} {i : Instance}
    {field : Field} {shape : Shape} (hField : ¬field.shape.Contains .any)
    (hShape : decidedShape (m.family name) i field = .ok shape) : ¬shape.Contains .any := by
  -- a decision is one of the section, and those have nothing undecided inside
  unfold decidedShape at hShape
  split at hShape
  · split at hShape
    · next decision hDecision =>
      cases hShape
      exact h.decide name i field.name _ hDecision
    · cases hShape
  · cases hShape
    exact hField

theorem decided_resolveField (hLower : lower.Decided) {shape : Shape}
    (hShape : ¬shape.Contains .any) (root : String) (source : Option (Dict Value)) (field : Field) :
    (resolveField m lower root source field shape).Raises Error.Decided := by
  unfold resolveField
  -- the error of a path is one of its value
  have hFound := (Resolution.raises_resolve m.store (fieldPath root field) source).mono
    Error.OfValue.decided
  refine .bind (.ofOutcome hFound) fun found _ => ?_
  dsimp only
  -- a field that is not needed comes up empty
  split
  · exact .pure _
  · split
    · exact (hLower.mapSection _ _ _).bind fun i _ => .pure _
    · exact (hLower.interpret _ _ hShape).bind fun r _ => .pure _

section
variable (h : m.Decided) (hLower : lower.Decided) (name root : String)
variable (source : Option (Dict Value)) (i : Instance)
include h hLower

theorem decided_fieldValue {field : Field} (hField : ¬field.shape.Contains .any) :
    (fieldValue m lower (m.family name) root source i field).Raises Error.Decided := by
  unfold fieldValue
  -- the decision fails only over a field that nobody decides on
  have hDecided := (raises_decidedShape (m.family name) i field).mono Error.OfValue.decided
  refine .bind (.ofOutcome hDecided) fun shape hShape => ?_
  have hConcrete := not_contains_any_of_decidedShape h hField (Run.returns_ofOutcome.mp hShape)
  -- there are no converters, so the shape is read as itself
  rw [h.converters]
  refine .bind (decided_resolveField hLower hConcrete root source field) fun resolved _ => ?_
  split
  · exact .bind (.pure _) fun r _ => .pure _
  · exact .pure _

theorem decided_mapLocatedField {field : Field} (hField : ¬field.shape.Contains .any) :
    (mapLocatedField m lower (m.family name) root source i field).Raises Error.Decided := by
  have hMapped : (mapField m lower (m.family name) root source i field).Raises Error.Decided := by
    unfold mapField
    refine .bind (decided_fieldValue h hLower name root source i hField) fun value _ => ?_
    split
    · next r _ =>
      have hTyped := (field.type.raises_of_convert r).mono Error.OfValue.decided
      exact (Run.Raises.ofOutcome hTyped).bind fun typed _ => .pure _
    · exact .pure _
  -- a name that is put in front changes nothing about the cause
  refine hMapped.mapError fun e hDecided => ?_
  split
  · exact hDecided
  · exact hDecided.within _

theorem decided_mapFields {fields : List Field}
    (hFields : ∀ field ∈ fields, ¬field.shape.Contains .any) :
    (mapFields m lower (m.family name) root source i fields).Raises Error.Decided := by
  induction fields generalizing i with
  | nil => exact .pure _
  | cons field rest ih =>
    obtain ⟨hField, hRest⟩ := List.forall_mem_cons.mp hFields
    exact (decided_mapLocatedField h hLower name root source i hField).bind fun j _ => ih j hRest

end

/-! ## The tower -/

section
variable (h : m.Decided) (hDiscovered : AllDiscovered m)
include h hDiscovered

theorem decided_mapSection (hLower : lower.Decided) (name root : String)
    (source : Option (Dict Value)) :
    (Mapping.mapSection m lower name root source).Raises Error.Decided := by
  unfold Mapping.mapSection
  dsimp only
  split
  · exact .fail nofun
  · -- the section has passed discovery, so none of its fields has undecided elements
    obtain ⟨fields, hFields⟩ := hDiscovered name
    rw [hFields, Run.ofOutcome_ok_bind]
    have hConcrete : ∀ field ∈ SectionType.mappingOrder fields, ¬field.shape.Contains .any :=
      fun field hMem => SectionType.not_contains_any_of_discover hFields
        (SectionType.mem_of_mem_mappingOrder hMem)
    refine .bind (decided_mapFields h hLower name root source _ hConcrete) fun i _ => ?_
    exact .bind (.ofOutcome (h.hook name i _)) fun last _ => .pure _

theorem Level.Decided.above (hLower : lower.Decided) : (lower.above m).Decided :=
  ⟨decided_mapSection h hDiscovered hLower, fun v _ hShape => decided_interpret h hLower v hShape⟩

theorem level_decided (depth : Nat) : (level m depth).Decided := by
  induction depth with
  | zero => exact ⟨fun _ _ _ _ hFails => absurd hFails Run.not_fails_tooDeep,
      fun _ _ _ _ hFails => absurd hFails Run.not_fails_tooDeep⟩
  | succ depth ih => exact ih.above h hDiscovered

end

/-- A section whose discovery fails is never mapped, wherever it would be read from. -/
theorem mapSection_fails_of_discover {name : String} {e : Error}
    (hMade : (m.family name).constructible = true)
    (hDiscover : (m.family name).discover name = .error e) (depth : Nat) (root : String)
    (source : Option (Dict Value)) :
    ((level m (depth + 1)).mapSection name root source).Fails e :=
  mapSection_fails_iff.mpr (.inr ⟨hMade, .inl hDiscover⟩)

end Mapping

/-- **Undecided elements are found by discovery, and only there.** Where every section passes it
and what is given from outside is decided, no mapping fails for want of the shape of an element.
And a section that can be made, has no fields of its own shape and has a field with undecided
elements fails with that cause below every root, in the store or in any other tree. -/
theorem Mapper.undecided_elements_discovered (m : Mapper) :
    (m.Decided → Mapping.AllDiscovered m → ∀ depth name root e,
      (m.mapSection depth name root).Fails e → ∀ fault, e.rootCause ≠ .genericTypeMissing fault) ∧
    ∀ name, (m.family name).constructible = true →
      (∀ field ∈ (m.family name).considered, field.shape ≠ .section name) →
      (∃ field ∈ (m.family name).considered, field.shape.Contains .any) →
      ∃ field ∈ (m.family name).considered, field.shape.Contains .any ∧ ∀ depth,
        (∀ root source, ((Mapping.level m (depth + 1)).mapSection name root source).Fails
          (Error.within field.name (.genericTypeMissing (.undecidedIn field.shape)))) ∧
        ∀ root, ∃ e, (m.mapSection (depth + 1) name root).Fails e ∧
          e.rootCause = .genericTypeMissing (.undecidedIn field.shape) := by
  -- the two halves have nothing in common
  refine ⟨fun h hDiscovered depth name root => ?_, fun name hMade hOther hUndecided => ?_⟩
  · -- a level that is decided fails with decided errors only
    have hSection := (Mapping.level_decided h hDiscovered depth).mapSection name (root.getD "") none
    exact hSection.mapError fun e hDecided => hDecided.within _
  · -- discovery comes first, so the section fails before any field is looked at
    obtain ⟨field, hField, hContains, hDiscover⟩ :=
      SectionType.discover_fails hOther hUndecided
    have hFails := Mapping.mapSection_fails_of_discover hMade hDiscover
    refine ⟨field, hField, hContains, fun depth => ⟨hFails depth, fun root => ?_⟩⟩
    refine ⟨_, Run.fails_mapError.mpr ⟨_, hFails depth (root.getD "") none, rfl⟩, ?_⟩
    -- the field and the root are annotations
    rw [Error.rootCause_within, Error.rootCause_within]
    rfl

namespace Mapping

/-- Jobs with tasks, whose labels have a given type, and numbers for which the job decides on a
shape. -/
def jobFamily (labels : FieldType) : Family := fun name =>
  if name = "job" then
    { SectionType.plain with
      fields := [.ofType "numbers" .any, .ofType "tasks" (.list (.section "task"))]
      decide := fun _ _ => some (.list (.scalar .long)) }
  else { SectionType.plain with fields := [.ofType "labels" labels] }

/-- The second of the numbers is none. -/
def jobMapper (labels : FieldType) : Mapper where
  family := jobFamily labels
  store := .ofRoot [("job", .map [("numbers", .list [.long 1, .string "two"]),
    ("tasks", .list [.map [("labels", .map [("team", .list [.string "core"])])]])])]
  evaluator := .interpreter
  converters := none
  environment := []

theorem jobMapper_decided (labels : FieldType) : (jobMapper labels).Decided where
  converters := rfl
  decide := by
    -- a job decides on a list of numbers
    intro name i field shape hDecision
    rw [← Shape.hasUndecidedElements_iff]
    change (jobFamily labels name).decide i field = some shape at hDecision
    unfold jobFamily at hDecision
    split at hDecision
    · cases hDecision
      decide
    · cases hDecision
  evaluator := Evaluator.interpreter_raises fun _ => nofun
  hook := by
    intro name i specs
    show ((jobFamily labels name).afterParsing i specs).Raises Error.Decided
    unfold jobFamily
    split
    · exact .ok _
    · exact .ok _

/-- Lists of labels are texts, or have no shape. -/
def textLabels : FieldType :=
  .map (.native .string) (.list (.native .string))

def looseLabels : FieldType :=
  .map (.native .string) (.list .any)

theorem jobMapper_discovered : AllDiscovered (jobMapper textLabels) := by
  intro name
  show ∃ fields, (jobFamily textLabels name).discover name = .ok fields
  unfold jobFamily
  split
  · next hName =>
    subst hName
    exact ⟨_, rfl⟩
  · exact ⟨_, rfl⟩

/-- With labels of texts the job fails over its numbers alone. With labels that have no shape every
task fails, and so does one that is read where no labels are. -/
theorem jobMapper_fails :
    (jobMapper textLabels).Decided ∧ AllDiscovered (jobMapper textLabels) ∧
      (∃ e, ((jobMapper textLabels).mapSection 8 "job" (some "job")).Fails e ∧
        e.rootCause = .coercion "i64" "'two'" ∧
        ∀ fault, e.rootCause ≠ .genericTypeMissing fault) ∧
      (jobFamily looseLabels "task").constructible = true ∧
      (∀ field ∈ (jobFamily looseLabels "task").considered, field.shape ≠ .section "task") ∧
      (∃ field ∈ (jobFamily looseLabels "task").considered, field.shape.Contains .any) ∧
      (jobMapper looseLabels).store.get? "labels" = none ∧
      ∃ e, ((jobMapper looseLabels).mapSection 1 "task" none).Fails e ∧
        ∃ shape : Shape, e.rootCause = .genericTypeMissing (.undecidedIn shape) := by
  have hFails : ((jobMapper textLabels).mapSection 8 "job" (some "job")).Fails
      (.located "job.numbers[1]" (.coercion "i64" "'two'")) := rfl
  have hOther : ∀ field ∈ (jobFamily looseLabels "task").considered,
      field.shape ≠ .section "task" := by decide
  have hUndecided : ∃ field ∈ (jobFamily looseLabels "task").considered,
      field.shape.Contains .any :=
    ⟨.ofType "labels" looseLabels, List.mem_singleton_self _,
      Shape.hasUndecidedElements_iff.mp (by decide)⟩
  -- the first half for the job, the second half for its tasks
  obtain ⟨hOnly, -⟩ := Mapper.undecided_elements_discovered (jobMapper textLabels)
  obtain ⟨-, hFound⟩ := Mapper.undecided_elements_discovered (jobMapper looseLabels)
  obtain ⟨field, -, -, hEvery⟩ := hFound "task" rfl hOther hUndecided
  obtain ⟨e, hTask, hCause⟩ := (hEvery 0).2 none
  exact ⟨jobMapper_decided _, jobMapper_discovered,
    ⟨_, hFails, rfl, hOnly (jobMapper_decided _) jobMapper_discovered _ _ _ _ hFails⟩,
    rfl, hOther, hUndecided, rfl, e, hTask, field.shape, hCause⟩

end Mapping

end TypedConfig
