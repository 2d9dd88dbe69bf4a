import TypedConfig.Proofs.Error.Failing
import TypedConfig.Proofs.Relocation
import TypedConfig.Proofs.Store.Writing

/-!
# Runs that settle

A run of the engine settles when some number of levels is enough for it: it has an
outcome there, and the same one with any more levels. Settling is passed on through
every way of building a run, so each function of the engine settles with the runs of
the level below that it makes: a value with the parts of a container, a field with
the section it is mapped as or the value it finds, a section with its fields.

Main results:

* `Value.containerInduction` — induction over the items and entries of containers.
* `Settles.bind` / `Settles.of_above` — sequences, and one level on top.
* `settles_interpret_of_parts` — what is not mapped as a section settles with its parts.
* `settles_mapSection` — a section settles with its fields.
-/

namespace TypedConfig

/-! ## The parts of a value -/

namespace Value

/-- No deferred expression is in the value, at any depth. -/
inductive Evaluated : Value → Prop
  | leaf {v : Value} : v.isContainer = false → v.isExpression = false → Evaluated v
  | list {items : List Value} : (∀ item ∈ items, Evaluated item) → Evaluated (.list items)
  | set {items : List Value} : (∀ item ∈ items, Evaluated item) → Evaluated (.set items)
  | map {entries : List (String × Value)} : (∀ entry ∈ entries, Evaluated entry.2) →
      Evaluated (.map entries)

/-- What a container is interpreted by: its items, or the keys and values of its entries. -/
def parts : Value → List Value
  | list items | set items => items
  | map entries => entries.flatMap fun entry => [.string entry.1, entry.2]
  | _ => []

theorem mem_parts_map {entries : List (String × Value)} {part : Value} :
    part ∈ (map entries).parts ↔
      ∃ entry ∈ entries, part = .string entry.1 ∨ part = entry.2 := by
  simp [parts, List.mem_flatMap]

theorem sizeOf_pos (v : Value) : 0 < sizeOf v := by
  cases v <;>
    simp only [null.sizeOf_spec, bool.sizeOf_spec, long.sizeOf_spec, double.sizeOf_spec,
      string.sizeOf_spec, expression.sizeOf_spec, list.sizeOf_spec, set.sizeOf_spec,
      map.sizeOf_spec] <;>
    omega

theorem sizeOf_lt_of_mem_entries {entries : List (String × Value)} {entry : String × Value}
    (h : entry ∈ entries) : sizeOf entry.2 < sizeOf (map entries) := by
  have hEntry := List.sizeOf_lt_of_mem h
  obtain ⟨key, v⟩ := entry
  simp at hEntry ⊢
  omega

theorem sizeOf_lt_of_mem_parts {v part : Value} (h : part ∈ v.parts) : sizeOf part < sizeOf v := by
  cases v with
  | list items | set items =>
    have hItem : sizeOf part < sizeOf items := List.sizeOf_lt_of_mem h
    simp
    omega
  | map entries =>
    obtain ⟨⟨key, v⟩, hEntry, rfl | rfl⟩ := mem_parts_map.mp h
    · -- a key is a part as well, and lies inside its entry
      have hSize := List.sizeOf_lt_of_mem hEntry
      simp at hSize ⊢
      have := sizeOf_pos v
      omega
    · exact sizeOf_lt_of_mem_entries hEntry
  | _ => cases h

/-- Induction over values: what containers have from their items and entries, and all other values
have by themselves, every value has. -/
@[elab_as_elim]
theorem containerInduction {P : Value → Prop} (leaf : ∀ v, v.isContainer = false → P v)
    (list : ∀ items, (∀ item ∈ items, P item) → P (.list items))
    (set : ∀ items, (∀ item ∈ items, P item) → P (.set items))
    (map : ∀ entries : Dict Value, (∀ entry ∈ entries, P entry.2) → P (.map entries))
    (v : Value) : P v := by
  induction hSize : sizeOf v using Nat.strongRecOn generalizing v with
  | ind size ih =>
    subst hSize
    -- whatever the container is, its parts are smaller
    have hParts : ∀ part ∈ v.parts, P part := fun part hPart =>
      ih (sizeOf part) (sizeOf_lt_of_mem_parts hPart) part rfl
    cases v with
    | list items => exact list items hParts
    | set items => exact set items hParts
    | map entries =>
      exact map entries fun entry hEntry =>
        hParts entry.2 (mem_parts_map.mpr ⟨entry, hEntry, .inr rfl⟩)
    | _ => exact leaf _ rfl

theorem Evaluated.isExpression {v : Value} (h : v.Evaluated) : v.isExpression = false := by
  cases h with
  | leaf _ hExpression => exact hExpression
  | list | set | map => rfl

theorem Evaluated.of_mem_parts {v part : Value} (h : v.Evaluated) (hPart : part ∈ v.parts) :
    part.Evaluated := by
  cases h with
  | leaf hContainer hExpression =>
    cases v with
    | list | set | map => cases hContainer
    | _ => cases hPart
  | list hItems | set hItems => exact hItems part hPart
  | map hEntries =>
    obtain ⟨entry, hEntry, rfl | rfl⟩ := mem_parts_map.mp hPart
    · -- the key of an entry is a text
      exact .leaf rfl rfl
    · exact hEntries entry hEntry

theorem Evaluated.reach? {keys : List String} {v found : Value} (h : v.Evaluated)
    (hFound : v.reach? keys = some found) : found.Evaluated := by
  induction keys generalizing v with
  | nil =>
    cases hFound
    exact h
  | cons key keys ih =>
    cases v with
    | map entries =>
      -- only maps lead further down
      obtain ⟨inner, hInner, hFound⟩ := Option.bind_eq_some_iff.mp hFound
      refine ih ?_ hFound
      exact h.of_mem_parts (mem_parts_map.mpr ⟨_, Dict.mem_of_get? hInner, .inr rfl⟩)
    | _ => cases hFound

theorem sizeOf_reach?_le {keys : List String} {v found : Value}
    (hFound : v.reach? keys = some found) : sizeOf found ≤ sizeOf v := by
  induction keys generalizing v with
  | nil =>
    cases hFound
    exact Nat.le_refl _
  | cons key keys ih =>
    cases v with
    | map entries =>
      obtain ⟨inner, hInner, hFound⟩ := Option.bind_eq_some_iff.mp hFound
      have hEntry := sizeOf_lt_of_mem_entries (Dict.mem_of_get? hInner)
      exact Nat.le_trans (ih hFound) (Nat.le_of_lt hEntry)
    | _ => cases hFound

/-- Below at least one key, a value is smaller. -/
theorem sizeOf_reach?_lt {keys : List String} (hKeys : keys ≠ []) {v found : Value}
    (hFound : v.reach? keys = some found) : sizeOf found < sizeOf v := by
  cases keys with
  | nil => exact absurd rfl hKeys
  | cons key keys =>
    cases v with
    | map entries =>
      obtain ⟨inner, hInner, hFound⟩ := Option.bind_eq_some_iff.mp hFound
      -- the first key leads to an entry, and the others not out of it
      exact Nat.lt_of_le_of_lt (sizeOf_reach?_le hFound)
        (sizeOf_lt_of_mem_entries (Dict.mem_of_get? hInner))
    | _ => cases hFound

end Value

/-! ## Runs that settle -/

namespace Mapping

variable {m : Mapper} {α β : Type}

/-- With enough levels the run has an outcome, and further levels do not change it. -/
def Settles (m : Mapper) (run : Level → Run α) : Prop :=
  ∃ depth outcome, ∀ more, depth ≤ more → (run (level m more)).run = some outcome

theorem Settles.ofOutcome (o : Outcome α) : Settles m fun _ => Run.ofOutcome o :=
  ⟨0, o, fun _ _ => rfl⟩

theorem Settles.pure (a : α) : Settles m fun _ => Pure.pure a :=
  Settles.ofOutcome (.ok a)

theorem Settles.bind {run : Level → Run α} {rest : Level → α → Run β} (h : Settles m run)
    (hRest : ∀ a, Settles m fun lower => rest lower a) :
    Settles m fun lower => run lower >>= rest lower := by
  obtain ⟨depth, outcome, hRun⟩ := h
  -- an error ends the sequence; otherwise both parts need their levels
  cases outcome with
  | error e =>
    refine ⟨depth, .error e, fun more hMore => ?_⟩
    exact Run.fails_bind.mpr (.inl (hRun more hMore))
  | ok a =>
    obtain ⟨depth', outcome, hOutcome⟩ := hRest a
    -- the deeper one of the two is deep enough for both
    refine ⟨max depth depth', outcome, fun more hMore => ?_⟩
    have hFirst : (run (level m more)).Returns a := hRun more (by omega)
    rw [Run.run_bind_of_returns hFirst]
    exact hOutcome more (by omega)

theorem Settles.mapError {run : Level → Run α} (h : Settles m run) (f : Error → Error) :
    Settles m fun lower => (run lower).mapError f := by
  obtain ⟨depth, outcome, hRun⟩ := h
  refine ⟨depth, outcome.mapError f, fun more hMore => ?_⟩
  show (run (level m more)).run.map (Except.mapError f) = _
  rw [hRun more hMore]
  rfl

/-- One more level is enough for a run that settles on the level above. -/
theorem Settles.of_above {run : Level → Run α} (h : Settles m fun lower => run (lower.above m)) :
    Settles m run := by
  obtain ⟨depth, outcome, hRun⟩ := h
  refine ⟨depth + 1, outcome, fun more hMore => ?_⟩
  obtain ⟨less, rfl⟩ := Nat.exists_eq_add_of_le' (Nat.one_le_of_lt hMore)
  exact hRun less (Nat.le_of_succ_le_succ hMore)

/-! ## Interpreting values -/

section
variable (hConverters : m.converters = none)
include hConverters

theorem settles_convertElement {shape : Shape} {v : Value}
    (h : Settles m fun lower => lower.interpret v shape) :
    Settles m fun lower => convertElement m lower shape v := by
  unfold convertElement
  rw [hConverters]
  by_cases hAny : shape = .any
  · -- an element without a shape is refused at once
    simp only [if_pos hAny]
    exact .ofOutcome (.error _)
  · simp only [if_neg hAny]
    exact h.bind fun r => .pure r

theorem settles_convertItemsFrom {element : Shape} {items : List Value}
    (h : ∀ item ∈ items, Settles m fun lower => lower.interpret item element) (index : Nat) :
    Settles m fun lower => convertItemsFrom m lower element index items := by
  induction items generalizing index with
  | nil => exact .pure []
  | cons item items ih =>
    obtain ⟨hItem, hItems⟩ := List.forall_mem_cons.mp h
    exact ((settles_convertElement hConverters hItem).mapError _).bind fun r =>
      (ih hItems (index + 1)).bind fun results => .pure (r :: results)

theorem settles_convertEntryList {key element : Shape} {entries : List (String × Value)}
    (h : ∀ entry ∈ entries, (Settles m fun lower => lower.interpret (.string entry.1) key) ∧
      Settles m fun lower => lower.interpret entry.2 element) :
    Settles m fun lower => convertEntryList m lower key element entries := by
  induction entries with
  | nil => exact .pure []
  | cons entry entries ih =>
    obtain ⟨⟨hKey, hValue⟩, hEntries⟩ := List.forall_mem_cons.mp h
    -- an entry is its key and its value
    have hEntry : Settles m fun lower => convertEntry m lower key element entry :=
      ((settles_convertElement hConverters hKey).mapError _).bind fun k =>
        ((settles_convertElement hConverters hValue).mapError _).bind fun v => .pure (k, v)
    exact hEntry.bind fun r => (ih hEntries).bind fun results => .pure (r :: results)

end

theorem evaluate_of_evaluated {v : Value} (h : v.Evaluated) : evaluate m v = .ok v := by
  have hExpression := h.isExpression
  cases v with
  | expression e => cases hExpression
  | _ => rfl

section
variable (hConverters : m.converters = none) {v : Value} (hEvaluated : v.Evaluated)
variable (hParts : ∀ part ∈ v.parts, ∀ shape, Settles m fun lower => lower.interpret part shape)
include hConverters hEvaluated hParts

theorem settles_convertItems (element : Shape) :
    Settles m fun lower => convertItems m lower element v := by
  unfold convertItems
  simp only [evaluate_of_evaluated hEvaluated, Run.ofOutcome_ok_bind]
  cases v with
  | list items | set items =>
    exact settles_convertItemsFrom hConverters (fun item hItem => hParts item hItem element) 0
  | _ => exact .pure []

theorem settles_convertEntries (key element : Shape) :
    Settles m fun lower => convertEntries m lower key element v := by
  unfold convertEntries
  -- without expressions a value is its own evaluation
  simp only [evaluate_of_evaluated hEvaluated, Run.ofOutcome_ok_bind]
  cases v with
  | map entries =>
    refine settles_convertEntryList hConverters fun entry hEntry => ⟨?_, ?_⟩
    · exact hParts _ (Value.mem_parts_map.mpr ⟨entry, hEntry, .inl rfl⟩) key
    · exact hParts _ (Value.mem_parts_map.mpr ⟨entry, hEntry, .inr rfl⟩) element
  | _ => exact .pure []

/-- What is not mapped as a section settles with its parts. -/
theorem settles_interpret_of_parts {shape : Shape} (hShape : ∀ name, shape ≠ .section name) :
    Settles m fun lower => lower.interpret v shape := by
  -- one level is taken up by the shape itself
  apply Settles.of_above
  cases shape with
  | raw | any | deferred => exact .pure _
  | scalar kind => exact (Settles.ofOutcome _).bind fun s => .pure (Resolved.scalar s)
  | list element | set element | array element =>
    exact (settles_convertItems hConverters hEvaluated hParts element).bind fun items => .pure _
  | map key element =>
    exact (settles_convertEntries hConverters hEvaluated hParts key element).bind fun entries =>
      .pure _
  | «section» name => exact absurd rfl (hShape name)
  | custom name => exact .ofOutcome (.error _)

end

/-! ## Mapping fields -/

/-- A field that is needed settles with the section it is mapped as, or with its value. -/
theorem settles_resolveField {root : String} {source : Option (Dict Value)} {field : Field}
    {shape : Shape}
    (hSection : ∀ inner found, shape = .section inner →
      Resolution.resolve m.store (fieldPath root field) source = .ok found → Needed field found →
      Settles m fun lower => lower.mapSection inner (fieldPath root field) source)
    (hValue : ∀ found, (∀ inner, shape ≠ .section inner) →
      Resolution.resolve m.store (fieldPath root field) source = .ok found →
      Settles m fun lower => lower.interpret (found.getD .null) shape) :
    Settles m fun lower => resolveField m lower root source field shape := by
  unfold resolveField
  dsimp only
  cases hResolve : Resolution.resolve m.store (fieldPath root field) source with
  | error e =>
    simp only [Run.ofOutcome_error_bind]
    exact .ofOutcome (.error e)
  | ok found =>
    simp only [Run.ofOutcome_ok_bind]
    -- what is not needed is not mapped at all
    by_cases hNeeded : Needed field found
    · simp only [if_neg (needed_iff.mp hNeeded)]
      cases shape with
      | «section» inner =>
        exact (hSection inner found rfl hResolve hNeeded).bind fun i => .pure _
      | _ => exact (hValue found nofun hResolve).bind fun r => .pure (some r)
    · simp only [if_pos (Decidable.not_not.mp (mt needed_iff.mpr hNeeded))]
      exact .pure none

section
variable (hConverters : m.converters = none) {type : SectionType}
variable (hDecide : ∀ i field, type.decide i field = none)
include hConverters hDecide

theorem settles_mapLocatedField {root : String} {source : Option (Dict Value)} {field : Field}
    (h : Settles m fun lower => resolveField m lower root source field field.shape)
    (i : Instance) : Settles m fun lower => mapLocatedField m lower type root source i field := by
  refine Settles.mapError ?_ _
  have hField : Settles m fun lower => fieldValue m lower type root source i field := by
    unfold fieldValue
    -- a field that nobody decides fails before it is resolved
    by_cases hAny : field.shape = .any
    · have hShape : decidedShape type i field = .error (.mapping .undecidedField) := by
        rw [decidedShape, if_pos hAny, hDecide]
      simp only [hShape, Run.ofOutcome_error_bind]
      exact .ofOutcome (.error _)
    · have hShape : decidedShape type i field = .ok field.shape := if_neg hAny
      simp only [hShape, Run.ofOutcome_ok_bind, hConverters]
      refine h.bind fun resolved => ?_
      -- without converters the resolved value is left as it is, and the default asks for no level
      cases resolved with
      | some r => exact .pure (some r)
      | none => exact .pure _
  refine hField.bind fun value => ?_
  cases value with
  | some r => exact (Settles.ofOutcome _).bind fun typed => .pure _
  | none => exact .pure i

theorem settles_mapFields {root : String} {source : Option (Dict Value)} {fields : List Field}
    (h : ∀ field ∈ fields,
      Settles m fun lower => resolveField m lower root source field field.shape)
    (i : Instance) : Settles m fun lower => mapFields m lower type root source i fields := by
  induction fields generalizing i with
  | nil => exact .pure i
  | cons field fields ih =>
    obtain ⟨hField, hFields⟩ := List.forall_mem_cons.mp h
    exact (settles_mapLocatedField hConverters hDecide hField i).bind fun j => ih hFields j

end

/-- The field is mapped with the section of the name, which can be made and passes
discovery. -/
def Discovered (m : Mapper) (name : String) (field : Field) : Prop :=
  (m.family name).constructible = true ∧
    ∃ fields, (m.family name).discover name = .ok fields ∧ field ∈ fields

/-- A section settles with its fields. -/
theorem settles_mapSection (hConverters : m.converters = none) {name root : String}
    {source : Option (Dict Value)} (hDecide : ∀ i field, (m.family name).decide i field = none)
    (h : ∀ field, Discovered m name field →
      Settles m fun lower => resolveField m lower root source field field.shape) :
    Settles m fun lower => lower.mapSection name root source := by
  apply Settles.of_above
  show Settles m fun lower => Mapping.mapSection m lower name root source
  unfold Mapping.mapSection
  dsimp only
  split
  · -- a section that cannot be made fails at once
    exact .ofOutcome (.error _)
  · next hConstructible =>
    cases hFields : (m.family name).discover name with
    | error e => exact .ofOutcome (.error e)
    | ok fields =>
      simp only [Run.ofOutcome_ok_bind]
      -- behind the fields comes the last hook, which asks for no level
      refine Settles.bind ?_ fun i => (Settles.ofOutcome _).bind fun j => .pure _
      refine settles_mapFields hConverters hDecide (fun field hField => h field ?_) _
      exact ⟨by simpa using hConstructible, fields, hFields,
        SectionType.mem_of_mem_mappingOrder hField⟩

end Mapping

end TypedConfig
