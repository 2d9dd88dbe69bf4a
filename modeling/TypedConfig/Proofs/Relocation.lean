import TypedConfig.Proofs.Collect
import TypedConfig.Proofs.Path
import TypedConfig.Proofs.Run
import Mathlib.Logic.Relation

/-!
# Sections do not notice where they stand

A section is mapped in one of two ways: below a root of the store, or from a map
that was fetched before. The two read their fields through different walks and
build different paths on the way. Where the map is the one that stands at the
root, they agree in everything: whatever the store holds around it, the section
sees the same fields and ends in the same way.

The agreement is a simulation, carried by the path that has grown below the root
so far. `Level.Relocates` states it for one level of the engine, for all sections
and all such paths at once; one more level preserves it, since nested sections
only ever grow the path.

Main results:

* `Tree.get?_append` / `Resolution.walk_eq_get?` — reading below a place is
  reading from what stands there, in the store and along a walk.
* `Level.Relocates.above` — one more level keeps the agreement.
* `mapSection_eq_of_get?` — mapping below a root of the store is mapping from
  the map at the root.
-/

namespace TypedConfig

/-! ## Reading below a place -/

theorem Tree.get?_cons_cons (key other : String) (keys : List String) (tree : Dict Value) :
    Tree.get? (key :: other :: keys) tree =
      match tree.get? key with
      | some (.map next) => Tree.get? (other :: keys) next
      | _ => none :=
  rfl

/-- What is below a place is read from the map that stands there. -/
theorem Tree.get?_append {keys : List String} {tree next : Dict Value}
    (h : Tree.get? keys tree = some (.map next)) (below : List String) :
    Tree.get? (keys ++ below) tree = Tree.get? below next := by
  induction keys generalizing tree with
  | nil =>
    cases h
    rfl
  | cons key keys ih =>
    cases keys with
    | nil =>
      -- the last key of the place leads to the map below it
      have hKey : tree.get? key = some (.map next) := h
      cases below with
      | nil => exact hKey
      | cons other below =>
        rw [List.singleton_append, Tree.get?_cons_cons, hKey]
    | cons other keys =>
      -- further up stands a map with the rest of the place in it
      rw [Tree.get?_cons_cons] at h
      split at h
      · next inner hKey =>
        rw [List.cons_append, List.cons_append, Tree.get?_cons_cons, hKey]
        exact ih h
      · cases h

/-- Along keys that are not blank, a walk reads what the tree holds. -/
theorem Resolution.walk_eq_get? {path : String} {keys : List String} {source : Dict Value}
    (hKeys : ∀ key ∈ keys, Text.isBlank key = false) :
    Resolution.walk path keys source = .ok (Tree.get? keys source) := by
  induction keys generalizing source with
  | nil => rfl
  | cons key keys ih =>
    have hKey : Text.isBlank key = false := hKeys key (List.mem_cons_self ..)
    -- the last key is only looked up, the others have to lead to maps
    cases keys with
    | nil => simp [Resolution.walk, Tree.get?, hKey]
    | cons other keys =>
      rw [Resolution.walk, hKey, if_neg Bool.false_ne_true, Tree.get?_cons_cons]
      cases source.get? key with
      | none => rfl
      | some value =>
        cases value with
        | map next => exact ih fun other hMem => hKeys other (List.mem_cons_of_mem _ hMem)
        | _ => rfl

/-- A clean path below the root of a map resolves in the store as its own part
does in the map. -/
theorem Resolution.resolve_join {store : Store} {root path : String} {sub : Dict Value}
    (hRoot : root = "" ∨ Text.isBlank root = false) (hMap : store.get? root = some (.map sub))
    (hPath : Path.Clean path) :
    Resolution.resolve store (Path.join root path) none =
      Resolution.resolve store path (some sub) := by
  -- both sides read the segments of the path from the map at the root
  have hStore : store.get? (Path.join root path) = Tree.get? (Path.segments path) sub := by
    rw [Store.get?, Path.segments_join hRoot hPath.not_blank]
    exact Tree.get?_append hMap _
  have hWalk : Resolution.walk path (Path.steps path) sub =
      .ok (Tree.get? (Path.segments path) sub) := by
    rw [hPath.steps_eq_segments]
    exact Resolution.walk_eq_get? fun key hKey => Path.isBlank_of_mem_segments hPath hKey
  rw [Resolution.resolve, Resolution.resolve, hStore, hWalk]

/-! ## Discovery keeps what is declared -/

/-- A discovered field is a declared one; only whether it is always resolved may
differ. -/
theorem SectionType.exists_declared {name : String} {type : SectionType} {fields : List Field}
    (h : type.discover name = .ok fields) {field : Field} (hField : field ∈ fields) :
    ∃ declared ∈ type.fields,
      { declared with always := declared.always || type.always } = field := by
  obtain ⟨declared, hMem, hCheck⟩ := exists_of_mem_collect h hField
  refine ⟨declared, (List.mem_filter.mp hMem).1, ?_⟩
  split at hCheck
  · -- a field that fails its check is not discovered
    cases hCheck
  · exact Except.ok.inj hCheck

theorem SectionType.mem_discover {name : String} {type : SectionType} {fields : List Field}
    (h : type.discover name = .ok fields) {field : Field} (hField : field ∈ fields) :
    ∃ declared ∈ type.fields, declared.name = field.name ∧ declared.shape = field.shape := by
  obtain ⟨declared, hMem, rfl⟩ := SectionType.exists_declared h hField
  exact ⟨declared, hMem, rfl, rfl⟩

theorem SectionType.mem_of_mem_mappingOrder {fields : List Field} {field : Field}
    (h : field ∈ SectionType.mappingOrder fields) : field ∈ fields := by
  rcases List.mem_append.mp h with h | h
  · exact (List.mem_filter.mp h).1
  · exact (List.mem_filter.mp h).1

namespace Mapping

/-! ## The sections a section reaches -/

/-- A field of the first section may be mapped as the second one at the field's
path: by its declared shape, by the one its section decides for some instance, or
by the one that a converter requires instead. -/
def Nests (m : Mapper) (outer inner : String) : Prop :=
  ∃ field ∈ (m.family outer).fields, ∃ i shape,
    decidedShape (m.family outer) i field = .ok shape ∧
      (ConverterRegistry.substitute m.converters shape).1 = .section inner

/-- The sections met below a section, itself included. -/
def Reaches (m : Mapper) : String → String → Prop :=
  Relation.ReflTransGen (Nests m)

/-- No field of the section, and of those it reaches, has a name with a blank
piece. -/
def ProperNames (m : Mapper) (name : String) : Prop :=
  ∀ inner, Reaches m name inner → ∀ field ∈ (m.family inner).fields, Path.Proper field.name

theorem ProperNames.nested {m : Mapper} {outer inner : String} (h : ProperNames m outer)
    (hNests : Nests m outer inner) : ProperNames m inner :=
  fun other hReach => h other (.head hNests hReach)

/-! ## The simulation -/

theorem fieldPath_join (root path : String) (field : Field) :
    fieldPath (Path.join root path) field = Path.join root (fieldPath path field) := by
  unfold fieldPath
  split
  · rfl
  · exact Path.join_assoc root path field.name

theorem clean_fieldPath {path : String} {field : Field} (hPath : Path.Clean path)
    (hName : Path.Proper field.name) : Path.Clean (fieldPath path field) := by
  unfold fieldPath
  split
  · exact hPath
  · exact hPath.join (.inr hName)

/-- At this level, mapping a section below a path that continues the root is
mapping it from the map at the root, along the rest of the path. -/
def Level.Relocates (m : Mapper) (root : String) (sub : Dict Value) (lower : Level) : Prop :=
  ∀ name path, ProperNames m name → Path.Clean path →
    lower.mapSection name (Path.join root path) none = lower.mapSection name path (some sub)

section
variable {m : Mapper} {root : String} {sub : Dict Value} {lower : Level}
variable (hRoot : root = "" ∨ Text.isBlank root = false)
variable (hMap : m.store.get? root = some (.map sub))
variable (hLower : lower.Relocates m root sub)
include hRoot hMap hLower

/-- A field is resolved to the same value from both sides. Only where it is mapped
as a section does its path matter any further. -/
theorem resolveField_join {path : String} {field : Field} {shape : Shape}
    (hPath : Path.Clean path) (hName : Path.Proper field.name)
    (hNested : ∀ inner, shape = .section inner → ProperNames m inner) :
    resolveField m lower (Path.join root path) none field shape =
      resolveField m lower path (some sub) field shape := by
  have hFieldPath : Path.Clean (fieldPath path field) := clean_fieldPath hPath hName
  unfold resolveField
  dsimp only
  rw [fieldPath_join root path field, Resolution.resolve_join hRoot hMap hFieldPath]
  cases shape with
  | «section» inner =>
    dsimp only
    rw [hLower inner (fieldPath path field) (hNested inner rfl) hFieldPath]
  | _ => dsimp only

/-- Mapping a discovered field of a section does the same from both sides. -/
theorem mapLocatedField_join {name path : String} {field : Field} {fields : List Field}
    (hNames : ProperNames m name) (hPath : Path.Clean path)
    (hFields : (m.family name).discover name = .ok fields) (hField : field ∈ fields)
    (i : Instance) :
    mapLocatedField m lower (m.family name) (Path.join root path) none i field =
      mapLocatedField m lower (m.family name) path (some sub) i field := by
  obtain ⟨declared, hDeclared, hSameName, hSameShape⟩ := SectionType.mem_discover hFields hField
  -- the name is that of a declared field, and thus proper
  have hName : Path.Proper field.name := hSameName ▸ hNames name .refl declared hDeclared
  -- a section decided for this instance is one that the section reaches
  have hValue : fieldValue m lower (m.family name) (Path.join root path) none i field =
      fieldValue m lower (m.family name) path (some sub) i field := by
    unfold fieldValue
    cases hShape : decidedShape (m.family name) i field with
    | error e => rw [Run.ofOutcome_error_bind, Run.ofOutcome_error_bind]
    | ok shape =>
      -- marking a field as always resolved does not change how its shape is decided
      have hDecided : decidedShape (m.family name) i declared = .ok shape := by
        rw [← hShape, decidedShape, decidedShape, hSameName, hSameShape]
      have hNested : ∀ inner,
          (ConverterRegistry.substitute m.converters shape).1 = .section inner →
            ProperNames m inner := fun inner hSection =>
        hNames.nested ⟨declared, hDeclared, i, shape, hDecided, hSection⟩
      rw [Run.ofOutcome_ok_bind, Run.ofOutcome_ok_bind]
      dsimp only
      rw [resolveField_join hRoot hMap hLower hPath hName hNested]
  unfold mapLocatedField mapField
  rw [hValue]

theorem mapFields_join {name path : String} {fields : List Field}
    (hNames : ProperNames m name) (hPath : Path.Clean path)
    (hFields : (m.family name).discover name = .ok fields) :
    ∀ {remaining : List Field}, (∀ field ∈ remaining, field ∈ fields) → ∀ i : Instance,
      mapFields m lower (m.family name) (Path.join root path) none i remaining =
        mapFields m lower (m.family name) path (some sub) i remaining := by
  intro remaining
  induction remaining with
  | nil =>
    intro _ i
    rfl
  | cons field rest ih =>
    intro hMem i
    have hRest := ih fun other hOther => hMem other (List.mem_cons_of_mem _ hOther)
    rw [mapFields, mapFields, mapLocatedField_join hRoot hMap hLower hNames hPath hFields
      (hMem field (List.mem_cons_self ..)) i]
    -- the fields that follow see whatever instance this one leaves
    simp only [hRest]

/-- **One more level keeps the agreement**: the fields of a section are read from
the same places, and the sections they nest stand below them. -/
theorem Level.Relocates.above : (lower.above m).Relocates m root sub := by
  intro name path hNames hPath
  show Mapping.mapSection m lower name (Path.join root path) none =
    Mapping.mapSection m lower name path (some sub)
  unfold Mapping.mapSection
  dsimp only
  -- a section that cannot be made fails in either place
  split
  · rfl
  · -- discovery and the hook behind the fields do not see where the section stands
    cases hFields : (m.family name).discover name with
    | error e => rw [Run.ofOutcome_error_bind, Run.ofOutcome_error_bind]
    | ok fields =>
      rw [Run.ofOutcome_ok_bind, Run.ofOutcome_ok_bind]
      rw [mapFields_join hRoot hMap hLower hNames hPath hFields
        fun field hMem => SectionType.mem_of_mem_mappingOrder hMem]

end

/-- The agreement holds at every level of the engine, below every root that is empty or not
blank. -/
theorem level_relocates_below {m : Mapper} {root : String} {sub : Dict Value}
    (hRoot : root = "" ∨ Text.isBlank root = false)
    (hMap : m.store.get? root = some (.map sub)) (depth : Nat) :
    (level m depth).Relocates m root sub := by
  induction depth with
  | zero => exact fun _ _ _ _ => rfl
  | succ depth ih => exact Level.Relocates.above hRoot hMap ih

theorem level_relocates {m : Mapper} {root : String} {sub : Dict Value}
    (hRoot : Path.Clean root) (hMap : m.store.get? root = some (.map sub)) (depth : Nat) :
    (level m depth).Relocates m root sub :=
  level_relocates_below hRoot.not_blank hMap depth

/-- **Mapping a section below a root of the store is mapping it from the map that
stands there**, instance and error alike, for every section that meets no field
name with a blank piece. -/
theorem mapSection_eq_of_get? {m : Mapper} {name root : String} {sub : Dict Value}
    (hNames : ProperNames m name) (hRoot : Path.Clean root)
    (hMap : m.store.get? root = some (.map sub)) (depth : Nat) :
    (level m depth).mapSection name root none =
      (level m depth).mapSection name "" (some sub) := by
  have hRelocates := level_relocates hRoot hMap depth name "" hNames (.inl rfl)
  rw [Path.join_empty_right hRoot] at hRelocates
  exact hRelocates

/-- A service that inlines its limits, nests an endpoint even where there is none,
and decides on further limits while it is mapped. -/
def serviceFamily : Family := fun name =>
  if name = "service" then
    { SectionType.plain with
      fields := [
        .ofType "title" (.native .string),
        { Field.ofType "limits" (.section "limits") with inlined := true },
        { Field.ofType "backup.endpoint" (.section "endpoint") with always := true },
        .ofType "extra" .any],
      decide := fun _ _ => some (.section "limits") }
  else if name = "limits" then
    { SectionType.plain with fields := [.ofType "max.size" (.native .long)] }
  else { SectionType.plain with fields := [.ofType "port" (.native .int)] }

def serviceTree : Dict Value :=
  [("extra", .map [("max", .map [("size", .string "1")])]),
    ("max", .map [("size", .string "10")]),
    ("title", .string "main")]

def serviceMapper : Mapper :=
  ⟨serviceFamily, .ofRoot [("all", .map [("services", .map serviceTree)]), ("title", .null)],
    .interpreter, none, []⟩

theorem serviceFamily_proper (name : String) :
    ∀ field ∈ (serviceFamily name).fields, Path.Proper field.name := by
  unfold serviceFamily
  split
  · decide
  · split
    · decide
    · decide

/-- Both ways end in a service that has all its parts. -/
theorem service_relocates :
    ProperNames serviceMapper "service" ∧ Path.Clean "all.services" ∧
      serviceMapper.store.get? "all.services" = some (.map serviceTree) ∧
      (level serviceMapper 3).mapSection "service" "all.services" none =
        (level serviceMapper 3).mapSection "service" "" (some serviceTree) ∧
      (((level serviceMapper 3).mapSection "service" "all.services" none).run.map
        (Except.map fun i => i.assigned.map Prod.fst)) =
        some (.ok ["title", "limits", "backup.endpoint", "extra"]) :=
  ⟨fun inner _ => serviceFamily_proper inner, .inr (by decide), rfl,
    mapSection_eq_of_get? (fun inner _ => serviceFamily_proper inner) (.inr (by decide)) rfl 3, rfl⟩

end Mapping

end TypedConfig
