import TypedConfig.Proofs.Collect
import TypedConfig.Proofs.Error.Failing

/-!
# The log of a mapping

A mapping goes through the table of a section once and gives every entry a turn. A turn
decides on a shape, looks for a value, falls back on a default, and assigns what it has,
if anything, to the instance that the turns before have left. The list of the turns is
the log of the mapping: replaying it on a blank instance gives the instance that the last
hook of the section gets.

One step is `mapLocatedField_returns_iff` and the whole run `mapFields_returns_iff`. Both
say exactly when a run returns, so that the log also tells what the run did *not* depend
on: a section with hooks that answer the same at the turns where they are asked is mapped
to the same instance.

Main results:

* `resolveField_returns_none_iff` / `Turn.TakenOn.assigns_eq_false_iff` — when a turn
  assigns nothing.
* `mapFields_returns_iff` — a run over a table is a list of turns.
* `Instance.assignedUnder_replay` — what a log leaves in an instance and in its bases.
* `mapSection_log` — the log of a mapping that succeeds.
-/

namespace TypedConfig

/-! ## Tables -/

namespace Field

/-- The field, always resolved if the whole section is. -/
def marked (always : Bool) (field : Field) : Field :=
  { field with always := field.always || always }

/-- The entry a field has in the table of a section that embeds it through a chain of
bases, from the outermost on. A base may mark all its fields as always resolved. -/
def embedded (bases : List (String × Bool)) (own : Field) : Field :=
  bases.foldr (fun base field => field.lift base.1 base.2) own

theorem always_embedded (bases : List (String × Bool)) (own : Field) :
    (own.embedded bases).always = (own.always || bases.any Prod.snd) := by
  induction bases with
  | nil => exact (Bool.or_false _).symm
  | cons base bases ih =>
    show ((own.embedded bases).always || base.2) = _
    rw [ih, List.any_cons, Bool.or_assoc, Bool.or_comm base.2]

end Field

namespace SectionType

/-- The entries of the table that take part in a mapping, in declared order. -/
def considered (type : SectionType) : List Field :=
  type.fields.filter fun field => !field.ignored

/-- The entries that are declared with a shape. -/
def shaped (type : SectionType) : List Field :=
  type.considered.filter fun entry => entry.shape ≠ .any

/-- The entries whose shape is decided while mapping. -/
def undecided (type : SectionType) : List Field :=
  type.considered.filter fun entry => entry.shape = .any

/-- What the last hook is told about the fields. -/
def specs (type : SectionType) : List FieldSpec :=
  type.considered.map fun entry => (entry.marked type.always).toFieldSpec

theorem eq_of_discover {type : SectionType} {name : String} {fields : List Field}
    (h : type.discover name = .ok fields) :
    fields = type.considered.map (Field.marked type.always) := by
  refine eq_map_of_collect (fun entry field hField => ?_) h
  split at hField
  · cases hField
  · exact (Except.ok.inj hField).symm

theorem mappingOrder_map_marked (always : Bool) (entries : List Field) :
    mappingOrder (entries.map (Field.marked always)) =
      (mappingOrder entries).map (Field.marked always) := by
  rw [mappingOrder, mappingOrder, List.filter_map, List.filter_map, List.map_append]
  rfl

/-- What discovery makes of one entry of the table. -/
def discoverField (name : String) (always : Bool) (field : Field) : Outcome Field :=
  (checkField name field).map fun _ => field.marked always

theorem discover_eq_collect (type : SectionType) (name : String) :
    type.discover name = collect (discoverField name type.always) type.considered := by
  refine collect_congr fun field _ => ?_
  unfold discoverField
  cases checkField name field <;> rfl

/-- A table passes discovery exactly when each of its entries does. -/
theorem exists_discover_iff {type : SectionType} {name : String} :
    (∃ fields, type.discover name = .ok fields) ↔
      ∀ entry ∈ type.considered, checkField name entry = .ok () := by
  rw [discover_eq_collect]
  constructor
  · rintro ⟨fields, hFields⟩ entry hEntry
    -- an entry that fails its check would fail the discovery
    cases hCheck : checkField name entry with
    | ok => rfl
    | error e =>
      have hMem : discoverField name type.always entry ∈ fields.map .ok := by
        rw [← collect_eq_ok_iff.mp hFields]
        exact List.mem_map_of_mem hEntry
      obtain ⟨field, -, hField⟩ := List.mem_map.mp hMem
      rw [discoverField, hCheck] at hField
      cases hField
  · intro hChecks
    refine exists_collect fun entry hEntry => ⟨entry.marked type.always, ?_⟩
    rw [discoverField, hChecks entry hEntry]
    rfl

theorem mappingOrder_of_discover {type : SectionType} {name : String} {found : List Field}
    (h : type.discover name = .ok found) :
    mappingOrder found = (type.shaped ++ type.undecided).map (Field.marked type.always) := by
  rw [eq_of_discover h, mappingOrder_map_marked]
  rfl

theorem specs_of_discover {type : SectionType} {name : String} {found : List Field}
    (h : type.discover name = .ok found) : found.map Field.toFieldSpec = type.specs := by
  rw [eq_of_discover h, List.map_map]
  rfl

end SectionType

/-! ## Turns -/

/-- The turn of an entry of the table: the shape it was read under, and what it was assigned,
if anything. -/
structure Turn where
  entry : Field
  shape : Shape
  value : Option Typed

namespace Turn

/-- The turn assigns something. -/
def assigns (turn : Turn) : Bool :=
  turn.value.isSome

/-- The instance after the turn. -/
def take (turn : Turn) (i : Instance) : Instance :=
  match turn.value with
  | some value => i.assign turn.entry.chain turn.entry.name value
  | none => i

/-- What the turn adds to the base at the end of a chain. -/
def recordUnder (chain : List String) (turn : Turn) : Option (String × Typed) :=
  if turn.entry.chain = chain then turn.value.map fun value => (turn.entry.name, value) else none

end Turn

namespace Instance

/-- The instance after some turns. -/
def replay (i : Instance) (turns : List Turn) : Instance :=
  turns.foldl (fun i turn => turn.take i) i

theorem replay_cons (i : Instance) (turn : Turn) (turns : List Turn) :
    i.replay (turn :: turns) = (turn.take i).replay turns := rfl

/-- What was assigned to the base at the end of a chain, or to the instance itself. -/
def assignedUnder (i : Instance) : List String → List (String × Typed)
  | [] => i.assigned
  | base :: chain => ((Dict.get? base i.bases).getD (blank base)).assignedUnder chain

theorem assignedUnder_blank (type : String) (chain : List String) :
    (blank type).assignedUnder chain = [] := by
  induction chain generalizing type with
  | nil => rfl
  | cons base chain ih => exact ih base

/-- An assignment adds an entry where it is made, and none elsewhere. -/
theorem assignedUnder_assign (i : Instance) (chain other : List String) (field : String)
    (value : Typed) :
    (i.assign chain field value).assignedUnder other =
      i.assignedUnder other ++ if chain = other then [(field, value)] else [] := by
  induction other generalizing i chain with
  | nil =>
    cases chain with
    | nil => rfl
    -- the assignment is made further down, in a base
    | cons base chain => exact (List.append_nil _).symm
  | cons base other ih =>
    cases chain with
    -- the assignment is made here, and not in a base
    | nil => exact (List.append_nil _).symm
    | cons first chain =>
      rw [assign, assignedUnder, assignedUnder]
      dsimp only
      -- in the same base the rest of the chain decides, and other bases are left alone
      by_cases hBase : base = first
      · subst hBase
        rw [Dict.get?_insert_self, Option.getD_some, ih]
        simp only [List.cons.injEq, true_and]
      · rw [Dict.get?_insert_of_ne hBase, if_neg fun h => hBase (List.cons.inj h).1.symm,
          List.append_nil]

theorem assignedUnder_take (i : Instance) (turn : Turn) (chain : List String) :
    (turn.take i).assignedUnder chain =
      i.assignedUnder chain ++ (turn.recordUnder chain).toList := by
  obtain ⟨entry, shape, value⟩ := turn
  cases value with
  | none => simp [Turn.take, Turn.recordUnder]
  | some value =>
    show (i.assign entry.chain entry.name value).assignedUnder chain = _
    rw [assignedUnder_assign, Turn.recordUnder]
    dsimp only
    -- it is recorded if the chain is the one that is asked for
    split <;> rfl

/-- **A log leaves exactly its records**, in the instance and in each of its bases. -/
theorem assignedUnder_replay (i : Instance) (turns : List Turn) (chain : List String) :
    (i.replay turns).assignedUnder chain =
      i.assignedUnder chain ++ turns.filterMap (Turn.recordUnder chain) := by
  induction turns generalizing i with
  | nil => exact (List.append_nil _).symm
  | cons turn turns ih =>
    rw [replay_cons, ih, assignedUnder_take, List.append_assoc, List.filterMap_cons]
    cases turn.recordUnder chain <;> rfl

end Instance

namespace Mapping

variable {m : Mapper} {lower : Level} {type : SectionType} {root : String}
  {source : Option (Dict Value)} {i : Instance}

/-! ## One turn -/

/-- Nothing is found for the field: its path is absent or leads to null. -/
def Absent (m : Mapper) (root : String) (source : Option (Dict Value)) (field : Field) : Prop :=
  ∃ found, Resolution.resolve m.store (fieldPath root field) source = .ok found ∧
    (found = none ∨ found = some .null)

theorem not_needed_iff {field : Field} {found : Option Value} :
    ¬Needed field found ↔ (found = none ∨ found = some .null) ∧ field.always = false := by
  have hNull : (found.getD .null).isNull = true ↔ found = none ∨ found = some .null := by
    rcases found with _ | v
    · exact iff_of_true rfl (.inl rfl)
    · cases v <;> simp [Value.isNull]
  rw [Needed, not_or, Bool.not_eq_false, Bool.not_eq_true, hNull]

/-- A field is resolved to nothing when nothing is found and it is not always resolved. -/
theorem resolveField_returns_none_iff {field : Field} {shape : Shape} :
    (resolveField m lower root source field shape).Returns none ↔
      Absent m root source field ∧ field.always = false := by
  unfold resolveField Absent
  dsimp only
  rw [Run.returns_bind]
  constructor
  · rintro ⟨found, hFound, hNone⟩
    rw [Run.returns_ofOutcome] at hFound
    split at hNone
    · next hEmpty =>
      obtain ⟨hMissing, hAlways⟩ := not_needed_iff.mp fun h => needed_iff.mp h hEmpty
      exact ⟨⟨found, hFound, hMissing⟩, hAlways⟩
    · -- whatever the field is resolved to then is something
      split at hNone
      · obtain ⟨i, -, hSome⟩ := Run.returns_bind.mp hNone
        cases Run.returns_pure.mp hSome
      · obtain ⟨r, -, hSome⟩ := Run.returns_bind.mp hNone
        cases Run.returns_pure.mp hSome
  · rintro ⟨⟨found, hFound, hMissing⟩, hAlways⟩
    have hEmpty := mt needed_iff.mpr (not_needed_iff.mpr ⟨hMissing, hAlways⟩)
    refine ⟨found, Run.returns_ofOutcome.mpr hFound, ?_⟩
    rw [if_pos (Decidable.not_not.mp hEmpty)]
    exact Run.returns_pure.mpr rfl

/-- The value a field is assigned is the converted one it was resolved to; where it was resolved to
nothing, the default. -/
theorem fieldValue_returns_iff {field : Field} {value : Option Resolved} :
    (fieldValue m lower type root source i field).Returns value ↔
      ∃ shape, decidedShape type i field = .ok shape ∧
        ((∃ r converted,
          (resolveField m lower root source field
            (ConverterRegistry.substitute m.converters shape).1).Returns (some r) ∧
          (applyConverter m (ConverterRegistry.substitute m.converters shape).2 r).Returns
            converted ∧ value = some converted) ∨
        Absent m root source field ∧ field.always = false ∧
          value = type.defaultFor i shape field.name) := by
  unfold fieldValue
  rw [Run.returns_bind]
  simp only [Run.returns_ofOutcome]
  refine exists_congr fun shape => and_congr_right fun _ => ?_
  rw [Run.returns_bind]
  constructor
  · rintro ⟨resolved, hResolved, hValue⟩
    cases resolved with
    -- resolved to nothing, the field gets its default
    | none =>
      obtain ⟨hAbsent, hAlways⟩ := resolveField_returns_none_iff.mp hResolved
      exact .inr ⟨hAbsent, hAlways, (Run.returns_pure.mp hValue).symm⟩
    -- resolved to something, it gets what that is converted to
    | some r =>
      obtain ⟨converted, hConverted, hSame⟩ := Run.returns_bind.mp hValue
      exact .inl ⟨r, converted, hResolved, hConverted, (Run.returns_pure.mp hSame).symm⟩
  · rintro (⟨r, converted, hResolved, hConverted, rfl⟩ | ⟨hAbsent, hAlways, rfl⟩)
    · exact ⟨some r, hResolved,
        Run.returns_bind.mpr ⟨converted, hConverted, Run.returns_pure.mpr rfl⟩⟩
    · exact ⟨none, resolveField_returns_none_iff.mpr ⟨hAbsent, hAlways⟩, Run.returns_pure.mpr rfl⟩

end Mapping

/-- What the engine does at a turn: it reads the entry under its declared shape, or under the
one that is decided on the instance so far, and assigns the value the field has then, converted
to its type. -/
structure Turn.TakenOn (m : Mapper) (lower : Mapping.Level) (type : SectionType) (root : String)
    (source : Option (Dict Value)) (i : Instance) (turn : Turn) : Prop where
  decided : Mapping.decidedShape type i turn.entry = .ok turn.shape
  valued : ∃ resolved,
    (Mapping.fieldValue m lower type root source i (turn.entry.marked type.always)).Returns
      resolved ∧ resolved.map turn.entry.type.convert = turn.value.map .ok

namespace Mapping

variable {m : Mapper} {lower : Level} {type : SectionType} {root : String}
  {source : Option (Dict Value)} {i : Instance}

/-- **A step returns exactly when there is a turn that leads where it ends.** -/
theorem mapLocatedField_returns_iff {entry : Field} {j : Instance} :
    (mapLocatedField m lower type root source i (entry.marked type.always)).Returns j ↔
      ∃ turn : Turn, turn.entry = entry ∧ turn.TakenOn m lower type root source i ∧
        turn.take i = j := by
  rw [mapLocatedField, Run.returns_mapError, mapField, Run.returns_bind]
  constructor
  · rintro ⟨resolved, hResolved, hRest⟩
    obtain ⟨shape, hShape, -⟩ := fieldValue_returns_iff.mp hResolved
    cases resolved with
    -- a turn without a value leaves the instance as it is
    | none =>
      exact ⟨⟨entry, shape, none⟩, rfl, ⟨hShape, none, hResolved, rfl⟩, Run.returns_pure.mp hRest⟩
    -- a turn with a value converts and assigns it
    | some r =>
      obtain ⟨value, hValue, hAssigned⟩ := Run.returns_bind.mp hRest
      rw [Run.returns_ofOutcome] at hValue
      exact ⟨⟨entry, shape, some value⟩, rfl,
        ⟨hShape, some r, hResolved, congrArg some hValue⟩, Run.returns_pure.mp hAssigned⟩
  · rintro ⟨turn, rfl, ⟨-, resolved, hResolved, hConverted⟩, rfl⟩
    refine ⟨resolved, hResolved, ?_⟩
    obtain ⟨entry, shape, value⟩ := turn
    -- the turn has a value just where one was resolved
    cases resolved with
    | none =>
      cases value with
      | none => exact Run.returns_pure.mpr rfl
      | some value => cases hConverted
    | some r =>
      cases value with
      | none => cases hConverted
      | some value =>
        exact Run.returns_bind.mpr ⟨value, Run.returns_ofOutcome.mpr (Option.some.inj hConverted),
          Run.returns_pure.mpr rfl⟩

end Mapping

namespace Turn

variable {m : Mapper} {lower : Mapping.Level} {type : SectionType} {root : String}
  {source : Option (Dict Value)} {i : Instance} {turn : Turn}

/-- **A turn assigns nothing** exactly when nothing is found, the field is not always
resolved, and there is no default. -/
theorem TakenOn.assigns_eq_false_iff (h : turn.TakenOn m lower type root source i) :
    turn.assigns = false ↔
      Mapping.Absent m root source turn.entry ∧ (turn.entry.marked type.always).always = false ∧
        type.defaultFor i turn.shape turn.entry.name = none := by
  obtain ⟨hDecided, resolved, hResolved, hConverted⟩ := h
  obtain ⟨shape, hShape, hCases⟩ := Mapping.fieldValue_returns_iff.mp hResolved
  obtain rfl : turn.shape = shape := Except.ok.inj (hDecided.symm.trans hShape)
  -- a conversion neither loses a value nor makes one
  have hAssigns : turn.assigns = false ↔ resolved = none := by
    have hSome := congrArg Option.isSome hConverted
    rw [Option.isSome_map, Option.isSome_map] at hSome
    rw [assigns, ← hSome, Option.isSome_eq_false_iff, Option.isNone_iff_eq_none]
  rw [hAssigns]
  rcases hCases with ⟨r, converted, hSome, -, rfl⟩ | ⟨hAbsent, hAlways, rfl⟩
  · -- a field that is needed is never resolved to nothing
    refine iff_of_false nofun fun ⟨hAbsent, hAlways, _⟩ => ?_
    have hNone : (Mapping.resolveField m lower root source (turn.entry.marked type.always)
        (ConverterRegistry.substitute m.converters turn.shape).1).Returns none :=
      Mapping.resolveField_returns_none_iff.mpr ⟨hAbsent, hAlways⟩
    cases hSome.unique hNone
  · exact ⟨fun hDefault => ⟨hAbsent, hAlways, hDefault⟩, fun hDefault => hDefault.2.2⟩

/-- A turn is taken in the same way under hooks that answer the same where they are asked. -/
theorem TakenOn.of_hooks (h : turn.TakenOn m lower type root source i) {other : SectionType}
    (hAlways : other.always = type.always)
    (hDecide : turn.entry.shape = .any →
      other.decide i turn.entry.name = type.decide i turn.entry.name)
    (hDefault : Mapping.Absent m root source turn.entry →
      (turn.entry.marked type.always).always = false →
        other.defaultFor i turn.shape turn.entry.name =
          type.defaultFor i turn.shape turn.entry.name) :
    turn.TakenOn m lower other root source i := by
  obtain ⟨hDecided, resolved, hResolved, hConverted⟩ := h
  obtain ⟨shape, hShape, hCases⟩ := Mapping.fieldValue_returns_iff.mp hResolved
  obtain rfl : turn.shape = shape := Except.ok.inj (hDecided.symm.trans hShape)
  -- the shape is decided alike, by the same answer where the hook is asked
  have hOther : Mapping.decidedShape other i turn.entry = .ok turn.shape := by
    rw [← hDecided]
    unfold Mapping.decidedShape
    split
    · next hAny => rw [hDecide hAny]
    · rfl
  refine ⟨hOther, resolved, ?_, hConverted⟩
  rw [hAlways]
  refine Mapping.fieldValue_returns_iff.mpr ⟨turn.shape, hOther, ?_⟩
  -- only a field that is resolved to nothing asks for its default
  refine hCases.imp_right fun ⟨hAbsent, hNot, hValue⟩ => ⟨hAbsent, hNot, ?_⟩
  exact hValue.trans (hDefault hAbsent hNot).symm

end Turn

namespace Mapping

variable {m : Mapper} {lower : Level} {type : SectionType} {root : String}
  {source : Option (Dict Value)} {i : Instance}

/-! ## All turns -/

/-- The turns follow each other: each is taken on the instance that those before it leave. -/
def TakenInOrder (m : Mapper) (lower : Level) (type : SectionType) (root : String)
    (source : Option (Dict Value)) (i : Instance) (turns : List Turn) : Prop :=
  ∀ before turn after, turns = before ++ turn :: after →
    turn.TakenOn m lower type root source (i.replay before)

theorem takenInOrder_nil : TakenInOrder m lower type root source i [] := by
  intro before turn after hTurns
  simp at hTurns

theorem takenInOrder_cons {turn : Turn} {turns : List Turn} :
    TakenInOrder m lower type root source i (turn :: turns) ↔
      turn.TakenOn m lower type root source i ∧
        TakenInOrder m lower type root source (turn.take i) turns := by
  constructor
  · intro h
    -- the first turn has none before it, and every other one has it in front
    refine ⟨h [] turn turns rfl, fun before other after hTurns => ?_⟩
    exact h (turn :: before) other after (congrArg (List.cons turn) hTurns)
  · rintro ⟨hFirst, hRest⟩ before other after hTurns
    cases before with
    | nil =>
      obtain ⟨rfl, -⟩ := List.cons.inj hTurns
      exact hFirst
    | cons first before =>
      obtain ⟨rfl, hRestTurns⟩ := List.cons.inj hTurns
      exact hRest before other after hRestTurns

/-- **A run returns exactly when there are turns that lead where it ends.** -/
theorem mapFields_returns_iff {entries : List Field} {j : Instance} :
    (mapFields m lower type root source i (entries.map (Field.marked type.always))).Returns j ↔
      ∃ turns : List Turn, turns.map Turn.entry = entries ∧
        TakenInOrder m lower type root source i turns ∧ i.replay turns = j := by
  induction entries generalizing i with
  | nil =>
    constructor
    · intro h
      exact ⟨[], rfl, takenInOrder_nil, Run.returns_pure.mp h⟩
    · rintro ⟨turns, hEntries, -, rfl⟩
      rw [List.map_eq_nil_iff.mp hEntries]
      exact Run.returns_pure.mpr rfl
  | cons entry entries ih =>
    rw [List.map_cons, mapFields, Run.returns_bind]
    -- the other entries have their turns on the instance that the first one leaves
    constructor
    · rintro ⟨k, hFirst, hRest⟩
      obtain ⟨turn, rfl, hTaken, rfl⟩ := mapLocatedField_returns_iff.mp hFirst
      obtain ⟨turns, rfl, hTurns, rfl⟩ := ih.mp hRest
      exact ⟨turn :: turns, rfl, takenInOrder_cons.mpr ⟨hTaken, hTurns⟩, rfl⟩
    · rintro ⟨turns, hEntries, hTurns, rfl⟩
      obtain ⟨turn, turns, rfl, rfl, rfl⟩ := List.map_eq_cons_iff.mp hEntries
      obtain ⟨hTaken, hRest⟩ := takenInOrder_cons.mp hTurns
      exact ⟨turn.take i, mapLocatedField_returns_iff.mpr ⟨turn, rfl, hTaken, rfl⟩,
        ih.mpr ⟨turns, rfl, hRest, rfl⟩⟩

/-! ## Mappings -/

/-- A section is mapped exactly when it can be made, passes discovery, and there are turns of all
its entries, after which its last hook accepts the instance. -/
theorem mapSection_returns_iff {name : String} :
    (Mapping.mapSection m lower name root source).Returns i ↔
      (m.family name).constructible = true ∧
      (∃ fields, (m.family name).discover name = .ok fields) ∧
      ∃ turns : List Turn,
        turns.map Turn.entry = (m.family name).shaped ++ (m.family name).undecided ∧
        TakenInOrder m lower (m.family name) root source (.blank name) turns ∧
        ∃ parsed, (m.family name).afterParsing ((Instance.blank name).replay turns)
            (m.family name).specs = .ok parsed ∧
          parsed.complete name (m.family name).specs = i := by
  unfold Mapping.mapSection
  dsimp only
  -- a section that cannot be made returns nothing
  cases hMade : (m.family name).constructible with
  | false => simp
  | true =>
    rw [if_neg (by simp), Run.returns_bind]
    simp only [Run.returns_ofOutcome, true_and]
    constructor
    · rintro ⟨fields, hFields, hRest⟩
      obtain ⟨mapped, hMapped, hEnd⟩ := Run.returns_bind.mp hRest
      obtain ⟨parsed, hParsed, hComplete⟩ := Run.returns_bind.mp hEnd
      -- the order of mapping and the descriptions of the fields come from the table alone
      rw [SectionType.mappingOrder_of_discover hFields] at hMapped
      rw [SectionType.specs_of_discover hFields, Run.returns_ofOutcome] at hParsed
      rw [SectionType.specs_of_discover hFields, Run.returns_pure] at hComplete
      obtain ⟨turns, hEntries, hTurns, rfl⟩ := mapFields_returns_iff.mp hMapped
      exact ⟨⟨fields, hFields⟩, turns, hEntries, hTurns, parsed, hParsed, hComplete⟩
    · rintro ⟨⟨fields, hFields⟩, turns, hEntries, hTurns, parsed, hParsed, hComplete⟩
      refine ⟨fields, hFields, ?_⟩
      rw [SectionType.mappingOrder_of_discover hFields, SectionType.specs_of_discover hFields]
      refine Run.returns_bind.mpr ⟨_, mapFields_returns_iff.mpr ⟨turns, hEntries, hTurns, rfl⟩, ?_⟩
      exact Run.returns_bind.mpr
        ⟨parsed, Run.returns_ofOutcome.mpr hParsed, Run.returns_pure.mpr hComplete⟩

/-- The hooks of another section answer as those of the first one where the turns ask them. -/
structure AnswersAt (m : Mapper) (root : String) (source : Option (Dict Value)) (i : Instance)
    (turns : List Turn) (type other : SectionType) : Prop where
  decide : ∀ before turn after, turns = before ++ turn :: after → turn.entry.shape = .any →
    other.decide (i.replay before) turn.entry.name = type.decide (i.replay before) turn.entry.name
  defaultFor : ∀ before turn after, turns = before ++ turn :: after →
    Absent m root source turn.entry → (turn.entry.marked type.always).always = false →
      other.defaultFor (i.replay before) turn.shape turn.entry.name =
        type.defaultFor (i.replay before) turn.shape turn.entry.name
  afterParsing :
    other.afterParsing (i.replay turns) type.specs = type.afterParsing (i.replay turns) type.specs

end Mapping

/-- The mapper, with another section under a name. -/
def Mapper.withSection (m : Mapper) (name : String) (type : SectionType) : Mapper :=
  { m with family := fun other => if other = name then type else m.family other }

namespace Mapping

variable {m : Mapper} {lower : Level} {root : String} {source : Option (Dict Value)}
  {i : Instance}

/-- Hooks that answer the same where the turns ask them lead to the same instance. -/
theorem mapSection_withSection {name : String} {turns : List Turn} {parsed : Instance}
    {other : SectionType}
    (hEntries : turns.map Turn.entry = (m.family name).shaped ++ (m.family name).undecided)
    (hTurns : TakenInOrder m lower (m.family name) root source (.blank name) turns)
    (hParsed : (m.family name).afterParsing ((Instance.blank name).replay turns)
      (m.family name).specs = .ok parsed)
    (hMade : other.constructible = true)
    (hFields : other.fields = (m.family name).fields)
    (hAlways : other.always = (m.family name).always)
    (hDiscover : ∃ fields, (m.family name).discover name = .ok fields)
    (hAnswers : AnswersAt m root source (.blank name) turns (m.family name) other) :
    (Mapping.mapSection (m.withSection name other) lower name root source).Returns
      (parsed.complete name (m.family name).specs) := by
  -- the family has changed in this section only
  have hOther : (m.withSection name other).family name = other := if_pos rfl
  -- with the same fields the table is the same in all that is mapped from it
  have hConsidered : other.considered = (m.family name).considered := by
    rw [SectionType.considered, SectionType.considered, hFields]
  have hSpecs : other.specs = (m.family name).specs := by
    rw [SectionType.specs, SectionType.specs, hConsidered, hAlways]
  rw [mapSection_returns_iff, hOther, SectionType.shaped, SectionType.undecided, hConsidered,
    hSpecs]
  refine ⟨hMade, ?_, turns, hEntries, fun before turn after hSplit => ?_, parsed, ?_, rfl⟩
  · -- discovery looks at the table only
    rwa [SectionType.discover, hFields, hAlways]
  · obtain ⟨hDecided, hValued⟩ := (hTurns before turn after hSplit).of_hooks hAlways
      (hAnswers.decide before turn after hSplit) (hAnswers.defaultFor before turn after hSplit)
    -- what is around the section has nothing to do with the family
    exact ⟨hDecided, hValued⟩
  · -- the last hook answers as before
    rw [hAnswers.afterParsing, hParsed]

/-- Where an entry that is decided while mapping has its turn, all the others have had theirs. -/
theorem shaped_prefix_of_any {type : SectionType} {before after : List Turn} {turn : Turn}
    (h : (before ++ turn :: after).map Turn.entry = type.shaped ++ type.undecided)
    (hAny : turn.entry.shape = .any) : type.shaped <+: before.map Turn.entry := by
  rw [List.map_append, List.map_cons] at h
  -- the entries with a shape end with the turns before this one, or go on with it
  rcases List.append_eq_append_iff.mp h with ⟨rest, hShaped, hRest⟩ | ⟨rest, hBefore, -⟩
  · cases rest with
    | nil => exact ⟨[], by rw [hShaped, List.append_nil, List.append_nil]⟩
    | cons entry rest =>
      -- the entry would be declared with a shape
      obtain ⟨rfl, -⟩ := List.cons.inj hRest
      have hMem : turn.entry ∈ type.shaped := hShaped ▸ List.mem_append_right _ List.mem_cons_self
      exact absurd hAny (of_decide_eq_true (List.mem_filter.mp hMem).2)
  · -- they all had their turns before
    exact ⟨rest, hBefore.symm⟩

/-- The turns are the log of a mapping that has ended with an instance. -/
structure Log (m : Mapper) (lower : Level) (name root : String) (source : Option (Dict Value))
    (turns : List Turn) (i : Instance) : Prop where
  /-- Every entry has one turn, first those with a shape, then the others, as declared. -/
  entries : turns.map Turn.entry = (m.family name).shaped ++ (m.family name).undecided
  /-- What is assigned is a part of that. -/
  assigned : ((turns.filter Turn.assigns).map Turn.entry).Sublist
    ((m.family name).shaped ++ (m.family name).undecided)
  /-- Nothing else is assigned, neither to the instance nor to one of its bases. -/
  recorded : ∀ chain, ((Instance.blank name).replay turns).assignedUnder chain =
    turns.filterMap (Turn.recordUnder chain)
  /-- An entry is left out where nothing is found, neither the field nor its section nor a base on
  the way is always resolved, and there is no default on the instance so far. -/
  missing : ∀ before turn after, turns = before ++ turn :: after →
    ∀ bases own, turn.entry = Field.embedded bases own →
      (turn.assigns = false ↔
        Absent m root source turn.entry ∧
          (own.always = false ∧ (m.family name).always = false ∧
            ∀ base ∈ bases, base.2 = false) ∧
          (m.family name).defaultFor ((Instance.blank name).replay before) turn.shape
            turn.entry.name = none)
  /-- The shape is the declared one. If it has to be decided, it is once all fields with a shape
  have had their turns. -/
  shape : ∀ before turn after, turns = before ++ turn :: after →
    if turn.entry.shape = .any then
      (m.family name).decide ((Instance.blank name).replay before) turn.entry.name =
          some turn.shape ∧
        (m.family name).shaped <+: before.map Turn.entry
    else turn.shape = turn.entry.shape
  /-- The value is the one the field has on the instance so far. -/
  value : ∀ before turn after, turns = before ++ turn :: after →
    ∃ resolved, (fieldValue m lower (m.family name) root source
        ((Instance.blank name).replay before)
        (turn.entry.marked (m.family name).always)).Returns resolved ∧
      resolved.map turn.entry.type.convert = turn.value.map .ok
  /-- The last hook gets the instance after all turns, and all considered fields as declared. -/
  completed : ∃ parsed, (m.family name).afterParsing ((Instance.blank name).replay turns)
      (m.family name).specs = .ok parsed ∧
    i = parsed.complete name (m.family name).specs
  /-- No hook is asked anything else: with hooks that answer the same here, the mapping ends with
  the same instance. -/
  asked : ∀ other : SectionType, other.constructible = true →
    other.fields = (m.family name).fields → other.always = (m.family name).always →
    AnswersAt m root source (.blank name) turns (m.family name) other →
      (Mapping.mapSection (m.withSection name other) lower name root source).Returns i

/-- **A mapping that succeeds has a log**, which is what the table of the section, the hooks and
the configuration dictate. -/
theorem mapSection_log {name : String}
    (h : (Mapping.mapSection m lower name root source).Returns i) :
    ∃ turns, Log m lower name root source turns i := by
  obtain ⟨-, hDiscover, turns, hEntries, hTurns, parsed, hParsed, rfl⟩ :=
    mapSection_returns_iff.mp h
  refine ⟨turns, hEntries, ?_, fun chain => ?_, ?_, ?_, ?_, ⟨parsed, hParsed, rfl⟩, ?_⟩
  · -- what is assigned is part of the table, in its order
    rw [← hEntries]
    exact List.filter_sublist.map Turn.entry
  · -- each chain has the assignments of its own turns
    rw [Instance.assignedUnder_replay, Instance.assignedUnder_blank, List.nil_append]
  · -- the turns that assign nothing, with the mark of each base spelled out
    rintro before turn after hSplit bases own hEntry
    rw [(hTurns before turn after hSplit).assigns_eq_false_iff]
    refine and_congr_right fun _ => and_congr_left fun _ => ?_
    show (turn.entry.always || (m.family name).always) = false ↔ _
    rw [hEntry, Field.always_embedded]
    simp only [Bool.or_eq_false_iff, List.any_eq_false, Bool.not_eq_true]
    exact ⟨fun ⟨⟨hOwn, hBases⟩, hSection⟩ => ⟨hOwn, hSection, hBases⟩,
      fun ⟨hOwn, hSection, hBases⟩ => ⟨⟨hOwn, hBases⟩, hSection⟩⟩
  · -- the shapes: decided after all that are given, or given themselves
    rintro before turn after rfl
    have hDecided := (hTurns before turn after rfl).decided
    rw [decidedShape] at hDecided
    split
    · next hAny =>
      rw [if_pos hAny] at hDecided
      refine ⟨?_, shaped_prefix_of_any hEntries hAny⟩
      split at hDecided
      · next shape hShape => rw [hShape, Except.ok.inj hDecided]
      · cases hDecided
    · next hShape =>
      rw [if_neg hShape] at hDecided
      exact (Except.ok.inj hDecided).symm
  · -- the values
    exact fun before turn after hSplit => (hTurns before turn after hSplit).valued
  · -- the hooks are asked nowhere else
    exact fun other hMade hFields hAlways hAnswers =>
      mapSection_withSection hEntries hTurns hParsed hMade hFields hAlways hDiscover hAnswers

/-- A base that is always resolved. -/
def levelBase : SectionType :=
  { SectionType.plain with always := true, fields := [.ofType "level" (.native .long)] }

/-- A server whose mode depends on its port, with a default for its host, a secret that is left out,
and a base. -/
def serverFamily : Family := fun _ =>
  { SectionType.plain with
    fields := [
      .ofType "mode" .any,
      .ofType "port" (.native .int),
      { Field.ofType "secret" (.native .string) with ignored := true },
      .ofType "host" (.native .string),
      .ofType "note" (.native .string)] ++ SectionType.inherited "base" levelBase
    decide := fun i _ => (i.value? "port").map fun _ => .scalar .long
    defaultFor := fun _ _ field => if field = "host" then some (.ofText "local") else none }

def serverMapper : Mapper :=
  ⟨serverFamily, .ofRoot [("mode", .string "7"), ("note", .null), ("port", .long 80),
    ("secret", .string "key")], .interpreter, none, []⟩

/-- The server with a log of four assignments: to the port, the host, the level of the base, and
the mode. -/
def loggedServer : Instance where
  type := "server"
  assigned := [("port", .native (.int 80)), ("host", .native (.string "local")),
    ("mode", .any (.scalar (.long 7)))]
  completed := some (serverFamily "server").specs
  bases := [("base", ⟨"base", [("level", .native (.long 0))], none, []⟩)]

theorem server_logged :
    (Mapping.mapSection serverMapper (level serverMapper 2) "server" "" none).Returns
        loggedServer ∧
      ∃ turns, Log serverMapper (level serverMapper 2) "server" "" none turns loggedServer := by
  have hMapped : (Mapping.mapSection serverMapper (level serverMapper 2) "server" "" none).Returns
      loggedServer := rfl
  exact ⟨hMapped, mapSection_log hMapped⟩

end Mapping

end TypedConfig
