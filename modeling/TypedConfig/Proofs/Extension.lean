import TypedConfig.Proofs.Termination

/-!
# What a mapping depends on

A mapping reads its store at the paths it joins below its root, and nowhere else; a
section that is mapped from a map reads no store at all. And the number of levels it
runs on decides whether it has an outcome, never which one.

Both are one simulation. Two mappers that differ in nothing but their stores run side
by side, over stores that agree on a set of paths that fields do not lead out of, the
second mapper on at least as many levels as the first. Wherever a run of the first ends,
the run of the second ends in the same way: `level_extendedOn`. Where the levels are the
same, this works in both directions, and the runs are equal.

Main results:

* `Run.ExtendedBy.bind` / `Level.ExtendedOn.above` — what keeps a run extended, and one
  more level.
* `level_extendedOn` — more levels, over a store that agrees, extend a mapping.
* `Mapper.mapSection_eq_of_get?_eq` — a mapping depends only on what is at its root.
-/

namespace TypedConfig

/-! ## Runs that go further -/

namespace Run

variable {α β : Type _}

/-- Wherever the first run ends, the second one ends in the same way. -/
def ExtendedBy (r r' : Run α) : Prop :=
  ∀ outcome, r.run = some outcome → r'.run = some outcome

theorem ExtendedBy.refl (r : Run α) : r.ExtendedBy r :=
  fun _ h => h

theorem tooDeep_extendedBy (r : Run α) : (tooDeep : Run α).ExtendedBy r :=
  nofun

/-- Runs that extend each other are the same. -/
theorem ExtendedBy.antisymm {r r' : Run α} (h : r.ExtendedBy r') (h' : r'.ExtendedBy r) :
    r = r' := by
  apply ExceptT.ext
  cases hRun : r.run with
  | some outcome => exact (h outcome hRun).symm
  | none =>
    -- an outcome of the second run would be one of the first
    cases hRun' : r'.run with
    | none => rfl
    | some outcome => exact absurd (hRun.symm.trans (h' outcome hRun')) nofun

theorem ExtendedBy.bind {r r' : Run α} {f f' : α → Run β} (h : r.ExtendedBy r')
    (hRest : ∀ a, (f a).ExtendedBy (f' a)) : (r >>= f).ExtendedBy (r' >>= f') := by
  intro outcome hOutcome
  rcases hRun : r.run with _ | (e | a)
  · -- without an outcome there is nothing to extend
    rw [run_bind_of_none f hRun] at hOutcome
    cases hOutcome
  · -- an error ends both
    have hFails : (r >>= f).Fails e := fails_bind.mpr (.inl hRun)
    have hFails' : (r' >>= f').Fails e := fails_bind.mpr (.inl (h _ hRun))
    exact hFails'.trans (hFails.symm.trans hOutcome)
  · -- a value is the same on both sides, and the rest goes on from it
    rw [run_bind_of_returns hRun] at hOutcome
    rw [run_bind_of_returns (h _ hRun)]
    exact hRest a outcome hOutcome

theorem ExtendedBy.mapError {r r' : Run α} (h : r.ExtendedBy r') (f : Error → Error) :
    (r.mapError f).ExtendedBy (r'.mapError f) := by
  intro outcome hOutcome
  obtain ⟨inner, hRun, hSame⟩ := Option.map_eq_some_iff.mp hOutcome
  exact Option.map_eq_some_iff.mpr ⟨inner, h inner hRun, hSame⟩

end Run

/-! ## Stores that agree -/

/-- The mapper, drawing on another store. -/
def Mapper.over (m : Mapper) (s : Store) : Mapper :=
  { m with store := s }

theorem Mapper.over_family (m : Mapper) (s : Store) : (m.over s).family = m.family := rfl

/-- The two stores hold the same at the given paths, and no field leads out of these. -/
structure Store.AgreeOn (s t : Store) (paths : String → Prop) : Prop where
  get?_eq : ∀ path, paths path → s.get? path = t.get? path
  closed : ∀ path field, paths path → paths (Mapping.fieldPath path field)

theorem Store.AgreeOn.symm {s t : Store} {paths : String → Prop} (h : s.AgreeOn t paths) :
    t.AgreeOn s paths :=
  ⟨fun path hPath => (h.get?_eq path hPath).symm, h.closed⟩

namespace Mapping

variable {m : Mapper} {s t : Store} {paths : String → Prop} {lower upper : Level}

theorem resolve_eq_of_agreeOn (hStores : s.AgreeOn t paths) {path : String}
    {source : Option (Dict Value)} (hPath : source = none → paths path) :
    Resolution.resolve s path source = Resolution.resolve t path source := by
  cases source with
  | none => rw [Resolution.resolve, Resolution.resolve, hStores.get?_eq path (hPath rfl)]
  | some source => rfl

/-! ## Levels that go further -/

/-- What a level ends with, a second level ends with too: sections mapped from a map or
below one of the paths, and interpreted values. -/
structure Level.ExtendedOn (paths : String → Prop) (lower upper : Level) : Prop where
  mapSection : ∀ name path source, (source = none → paths path) →
    (lower.mapSection name path source).ExtendedBy (upper.mapSection name path source)
  interpret : ∀ v shape, (lower.interpret v shape).ExtendedBy (upper.interpret v shape)

section
variable (hLevels : lower.ExtendedOn paths upper)
include hLevels

theorem convertElement_extendedBy (shape : Shape) (v : Value) :
    (convertElement (m.over s) lower shape v).ExtendedBy
      (convertElement (m.over t) upper shape v) := by
  unfold convertElement
  split
  · exact .refl _
  · exact (hLevels.interpret _ _).bind fun r => .refl _

theorem convertItemsFrom_extendedBy (element : Shape) (items : List Value) (index : Nat) :
    (convertItemsFrom (m.over s) lower element index items).ExtendedBy
      (convertItemsFrom (m.over t) upper element index items) := by
  induction items generalizing index with
  | nil => exact .refl _
  | cons item items ih =>
    exact ((convertElement_extendedBy hLevels element item).mapError _).bind fun r =>
      (ih (index + 1)).bind fun results => .refl _

theorem convertItems_extendedBy (element : Shape) (v : Value) :
    (convertItems (m.over s) lower element v).ExtendedBy
      (convertItems (m.over t) upper element v) := by
  unfold convertItems
  refine (Run.ExtendedBy.refl _).bind fun evaluated => ?_
  cases evaluated with
  | list items | set items => exact convertItemsFrom_extendedBy hLevels element items 0
  | _ => exact .refl _

theorem convertEntry_extendedBy (key element : Shape) (entry : String × Value) :
    (convertEntry (m.over s) lower key element entry).ExtendedBy
      (convertEntry (m.over t) upper key element entry) :=
  ((convertElement_extendedBy hLevels key _).mapError _).bind fun _ =>
    ((convertElement_extendedBy hLevels element _).mapError _).bind fun _ => .refl _

theorem convertEntryList_extendedBy (key element : Shape) (entries : List (String × Value)) :
    (convertEntryList (m.over s) lower key element entries).ExtendedBy
      (convertEntryList (m.over t) upper key element entries) := by
  induction entries with
  | nil => exact .refl _
  | cons entry entries ih =>
    exact (convertEntry_extendedBy hLevels key element entry).bind fun r =>
      ih.bind fun results => .refl _

theorem convertEntries_extendedBy (key element : Shape) (v : Value) :
    (convertEntries (m.over s) lower key element v).ExtendedBy
      (convertEntries (m.over t) upper key element v) := by
  unfold convertEntries
  refine (Run.ExtendedBy.refl _).bind fun evaluated => ?_
  cases evaluated with
  | map entries => exact convertEntryList_extendedBy hLevels key element entries
  | _ => exact .refl _

theorem interpret_extendedBy (v : Value) (shape : Shape) :
    (interpret (m.over s) lower v shape).ExtendedBy (interpret (m.over t) upper v shape) := by
  cases shape with
  -- containers are extended item by item
  | list element | set element | array element =>
    exact (convertItems_extendedBy hLevels element v).bind fun results => .refl _
  | map key element =>
    exact (convertEntries_extendedBy hLevels key element v).bind fun entries => .refl _
  | «section» name =>
    -- the section is mapped from the value, so no store is asked
    exact (hLevels.mapSection name "" (some (v.asMap?.getD [])) nofun).bind fun i => .refl _
  | _ => exact .refl _

variable (hStores : s.AgreeOn t paths)
include hStores

theorem resolveField_extendedBy {path : String} {source : Option (Dict Value)}
    (hPath : source = none → paths path) (field : Field) (shape : Shape) :
    (resolveField (m.over s) lower path source field shape).ExtendedBy
      (resolveField (m.over t) upper path source field shape) := by
  -- the field's path is one on which the stores agree
  have hFieldPath : source = none → paths (fieldPath path field) := fun hSource =>
    hStores.closed path field (hPath hSource)
  have hResolve : Resolution.resolve (m.over s).store (fieldPath path field) source =
      Resolution.resolve (m.over t).store (fieldPath path field) source :=
    resolve_eq_of_agreeOn hStores hFieldPath
  unfold resolveField
  dsimp only
  rw [hResolve]
  refine (Run.ExtendedBy.refl _).bind fun found => ?_
  split
  · exact .refl _
  · cases shape with
    | «section» name => exact (hLevels.mapSection name _ source hFieldPath).bind fun i => .refl _
    | _ => exact (hLevels.interpret _ _).bind fun r => .refl _

theorem fieldValue_extendedBy {path : String} {source : Option (Dict Value)}
    (hPath : source = none → paths path) (type : SectionType) (i : Instance) (field : Field) :
    (fieldValue (m.over s) lower type path source i field).ExtendedBy
      (fieldValue (m.over t) upper type path source i field) :=
  (Run.ExtendedBy.refl _).bind fun _ =>
    (resolveField_extendedBy hLevels hStores hPath field _).bind fun _ => .refl _

theorem mapLocatedField_extendedBy {path : String} {source : Option (Dict Value)}
    (hPath : source = none → paths path) (type : SectionType) (i : Instance) (field : Field) :
    (mapLocatedField (m.over s) lower type path source i field).ExtendedBy
      (mapLocatedField (m.over t) upper type path source i field) :=
  ((fieldValue_extendedBy hLevels hStores hPath type i field).bind fun _ => .refl _).mapError _

theorem mapFields_extendedBy {path : String} {source : Option (Dict Value)}
    (hPath : source = none → paths path) (type : SectionType) (fields : List Field)
    (i : Instance) :
    (mapFields (m.over s) lower type path source i fields).ExtendedBy
      (mapFields (m.over t) upper type path source i fields) := by
  induction fields generalizing i with
  | nil => exact .refl _
  | cons field fields ih =>
    exact (mapLocatedField_extendedBy hLevels hStores hPath type i field).bind fun j => ih j

/-- **One more level keeps a mapping extended.** -/
theorem Level.ExtendedOn.above :
    (lower.above (m.over s)).ExtendedOn paths (upper.above (m.over t)) where
  mapSection := by
    intro name path source hPath
    show (Mapping.mapSection (m.over s) lower name path source).ExtendedBy
      (Mapping.mapSection (m.over t) upper name path source)
    unfold Mapping.mapSection
    rw [Mapper.over_family, Mapper.over_family]
    dsimp only
    by_cases hMade : (!(m.family name).constructible) = true
    · rw [if_pos hMade, if_pos hMade]
      -- a section that cannot be made fails before any store is asked
      exact .refl _
    · rw [if_neg hMade, if_neg hMade]
      -- discovery asks no store either, so only the fields are left
      exact (Run.ExtendedBy.refl _).bind fun fields =>
        (mapFields_extendedBy hLevels hStores hPath _ _ _).bind fun i => .refl _
  interpret := interpret_extendedBy hLevels

end

/-- **More levels, over a store that agrees, extend a mapping.** -/
theorem level_extendedOn (hStores : s.AgreeOn t paths) {depth depth' : Nat}
    (hDepth : depth ≤ depth') :
    (level (m.over s) depth).ExtendedOn paths (level (m.over t) depth') := by
  induction depth generalizing depth' with
  | zero => exact ⟨fun _ _ _ _ => Run.tooDeep_extendedBy _, fun _ _ => Run.tooDeep_extendedBy _⟩
  | succ depth ih =>
    obtain ⟨less, rfl⟩ := Nat.exists_eq_add_of_le' (Nat.one_le_of_lt hDepth)
    exact (ih (Nat.le_of_succ_le_succ hDepth)).above hStores

/-- A mapping has the same outcome over stores that agree, on the paths it is made on. -/
theorem level_mapSection_eq (hStores : s.AgreeOn t paths) {path : String}
    {source : Option (Dict Value)} (hPath : source = none → paths path) (depth : Nat)
    (name : String) :
    (level (m.over s) depth).mapSection name path source =
      (level (m.over t) depth).mapSection name path source :=
  ((level_extendedOn hStores (Nat.le_refl depth)).mapSection name path source hPath).antisymm
    ((level_extendedOn hStores.symm (Nat.le_refl depth)).mapSection name path source hPath)

/-! ## Paths below a root -/

/-- The path leads to the place of the root or further down. Every path is below the empty
root. -/
def Below (root path : String) : Prop :=
  root = "" ∨ Text.isBlank path = false ∧ Path.segments root <+: Path.segments path

theorem below_self {root : String} (h : root = "" ∨ Text.isBlank root = false) :
    Below root root :=
  h.imp_right fun hBlank => ⟨hBlank, List.prefix_refl _⟩

theorem Below.fieldPath {root path : String} (h : Below root path) (field : Field) :
    Below root (fieldPath path field) := by
  refine h.imp_right fun ⟨hBlank, hPrefix⟩ => ?_
  refine ⟨isBlank_fieldPath hBlank, ?_⟩
  -- the name either adds segments or leaves those of the path alone
  by_cases hInPlace : InPlace field
  · rw [segments_fieldPath_of_inPlace hBlank hInPlace]
    exact hPrefix
  · obtain ⟨below, -, hSegments⟩ := segments_fieldPath_of_not_inPlace hBlank hInPlace
    rw [hSegments]
    exact hPrefix.trans (List.prefix_append _ _)

/-- Stores that hold the same at a root hold the same below it. -/
theorem agreeOn_below {root : String} (h : s.get? root = t.get? root) :
    s.AgreeOn t (Below root) where
  get?_eq := by
    rintro path (rfl | ⟨-, below, hSegments⟩)
    · -- at the empty root stands the whole tree
      have hRoot : s.root = t.root := Value.map.inj (Option.some.inj h)
      rw [Store.get?, Store.get?, hRoot]
    · -- below it both go on from one value
      rw [s.get?_eq_reach?, t.get?_eq_reach?] at h
      rw [s.get?_eq_reach?, t.get?_eq_reach?, ← hSegments, Value.reach?_append,
        Value.reach?_append, h]
  closed := fun _ field hBelow => hBelow.fieldPath field

end Mapping

/-! ## Writes apart from a path -/

namespace Store

variable {path other : String}

theorem get?_remove_of_apart (s : Store) (hBelow : ¬Path.segments path <+: Path.segments other)
    (hAbove : ¬Path.segments other <+: Path.segments path) :
    (s.remove path).get? other = s.get? other := by
  have hPath : Path.segments path ≠ [] := fun hNil => hBelow (hNil ▸ List.nil_prefix)
  rw [get?_eq_reach?, get?_eq_reach?]
  exact (s.without_remove hPath).reach?_apart hBelow hAbove

theorem get?_set_of_apart (s : Store) (hBelow : ¬Path.segments path <+: Path.segments other)
    (hAbove : ¬Path.segments other <+: Path.segments path) (value : Value) :
    (s.set path value).get? other = s.get? other := by
  cases hValue : value.isNull with
  | true =>
    -- setting null removes
    have hSet : s.set path value = s.remove path := if_pos hValue
    rw [hSet]
    exact s.get?_remove_of_apart hBelow hAbove
  -- any other value is put into the tree
  | false =>
    rw [Store.get?, root_set hValue]
    exact Tree.get?_set_apart hBelow hAbove value s.root

end Store

/-! ## Mappings -/

/-- **A mapping depends only on what is at its root.** Over two stores that hold the same
at a root, or both nothing, every mapping at that root returns the same instance or fails
with the same error. So no write to a path that stands neither above the root nor below it
changes what a mapping does. -/
theorem Mapper.mapSection_eq_of_get?_eq {m : Mapper} {s : Store} {root : String}
    (hRoot : root = "" ∨ Text.isBlank root = false) (depth : Nat) (name : String) :
    (∀ t : Store, s.get? root = t.get? root →
      (m.over s).mapSection depth name (some root) =
        (m.over t).mapSection depth name (some root)) ∧
    ∀ path, ¬Path.segments path <+: Path.segments root →
      ¬Path.segments root <+: Path.segments path →
        (∀ value, (m.over (s.set path value)).mapSection depth name (some root) =
          (m.over s).mapSection depth name (some root)) ∧
        (m.over (s.remove path)).mapSection depth name (some root) =
          (m.over s).mapSection depth name (some root) := by
  have hAgree : ∀ t t' : Store, t.get? root = t'.get? root →
      (m.over t).mapSection depth name (some root) =
        (m.over t').mapSection depth name (some root) := by
    intro t t' hSame
    have hSection : (Mapping.level (m.over t) depth).mapSection name root none =
        (Mapping.level (m.over t') depth).mapSection name root none :=
      Mapping.level_mapSection_eq (Mapping.agreeOn_below hSame) (fun _ => Mapping.below_self hRoot)
        depth name
    -- the root is only added to the errors
    exact congrArg (Run.mapError (Error.within root)) hSection
  refine ⟨fun t hSame => hAgree s t hSame, fun path hBelow hAbove => ⟨fun value => ?_, ?_⟩⟩
  · -- a write apart from the root leaves what is there, and so does a removal
    exact hAgree _ _ (s.get?_set_of_apart hBelow hAbove value)
  · exact hAgree _ _ (s.get?_remove_of_apart hBelow hAbove)

namespace Mapping

/-- A tree with the service alone, and nothing beside it. -/
def loneServiceStore : Store :=
  .ofRoot [("all", .map [("services", .map serviceTree)])]

/-- The service is the same whatever else stands in the tree, and whatever is set there. -/
theorem service_alone :
    Text.isBlank "all.services" = false ∧
      loneServiceStore.get? "all.services" = serviceMapper.store.get? "all.services" ∧
      ¬Path.segments "all.others" <+: Path.segments "all.services" ∧
      ¬Path.segments "all.services" <+: Path.segments "all.others" ∧
      (serviceMapper.over loneServiceStore).mapSection 3 "service" (some "all.services") =
        (serviceMapper.over serviceMapper.store).mapSection 3 "service" (some "all.services") ∧
      (serviceMapper.over (loneServiceStore.set "all.others" (.long 1))).mapSection 3 "service"
          (some "all.services") =
        (serviceMapper.over loneServiceStore).mapSection 3 "service" (some "all.services") ∧
      (((serviceMapper.over loneServiceStore).mapSection 3 "service"
        (some "all.services")).run.map (Except.map fun i => i.assigned.map Prod.fst)) =
        some (.ok ["title", "limits", "backup.endpoint", "extra"]) :=
  ⟨rfl, rfl, by decide, by decide,
    (Mapper.mapSection_eq_of_get?_eq (.inr rfl) 3 "service").1 _ rfl,
    ((Mapper.mapSection_eq_of_get?_eq (.inr rfl) 3 "service").2 "all.others" (by decide)
      (by decide)).1 (.long 1), rfl⟩

end Mapping

end TypedConfig
