import TypedConfig.Proofs.Collect
import TypedConfig.Proofs.Distinct
import TypedConfig.Proofs.Error.Cause
import TypedConfig.Proofs.Error.Failing
import TypedConfig.Proofs.Sorting

/-!
# Reading later

A deferred field keeps its value as it is, and whoever reads it later brings an
environment along. Such a read gives what mapping a field of the type that is read would
have given, under a mapper with the environment of the reader.

The two go through a container in different ways. The engine interprets the items as they
are and annotates the error of each with its place. The deferred read evaluates every
item first, looks whether it is a container itself, and interprets the outcome. As long
as no item is one, and no expression turns into another expression, what is left is the
same collection of scalars, with the same error in front: `Deferred.list_eq_collect` on
the one side and `bare_convertItemsFrom` on the other. From there on both turn scalars
into native values.

Main results:

* `Deferred.list_eq_collect` / `Deferred.map_eq_collect` — what a deferred read collects.
* `Reading.read_eq` — a read is the type of the field, applied to the scalars.
* `Mapping.bare_interpret` — the engine ends with the scalars of the read.
* `Mapping.read_later_agrees` — reading later is mapping now.
-/

namespace TypedConfig

/-! ## What a deferred read collects -/

namespace Deferred

variable {d : Deferred} {env : Environment} {kind : ScalarKind}

theorem resolve_of_not_expression {v : Value} (h : v.isExpression = false) :
    d.resolve env v = .ok v := by
  cases v with
  | expression e => cases h
  | _ => rfl

theorem matching?_of_isExpression {v : Value} (h : v.isExpression = true) :
    kind.matching? v = none := by
  cases v with
  | expression e => cases kind <;> rfl
  | _ => cases h

/-- A value is read as what it evaluates to, unless that is to be evaluated again. -/
theorem interpret_resolved {v w : Value} (h : d.resolve env v = .ok w)
    (hOnce : w.isExpression = false) : d.interpret kind env w = d.interpret kind env v := by
  cases hExpression : v.isExpression with
  | false =>
    -- what is no expression is its own outcome
    obtain rfl : v = w := Except.ok.inj ((resolve_of_not_expression hExpression).symm.trans h)
    rfl
  | true =>
    -- an expression matches no kind, so both readings go on with what it evaluates to
    rw [interpret, interpret, matching?_of_isExpression hExpression, h,
      resolve_of_not_expression hOnce]
    dsimp only
    cases kind.matching? w <;> rfl

/-- A value whose evaluation fails is read in vain. -/
theorem interpret_of_resolve_error {v : Value} {e : Error} (h : d.resolve env v = .error e) :
    d.interpret kind env v = .error e := by
  cases hExpression : v.isExpression with
  | false =>
    rw [resolve_of_not_expression hExpression] at h
    cases h
  | true => rw [interpret, matching?_of_isExpression hExpression, h]

/-- What the item evaluates to is neither a list nor a set, and no expression again. -/
def Flat (d : Deferred) (env : Environment) (item : Value) : Prop :=
  ∀ w, d.resolve env item = .ok w → w.items? = none ∧ w.isExpression = false

theorem itemScalars_of_flat {item : Value} (h : d.Flat env item) :
    d.itemScalars kind env item = (d.interpret kind env item).map fun s => [s] := by
  rw [itemScalars]
  cases hResolve : d.resolve env item with
  | error e =>
    rw [interpret_of_resolve_error hResolve]
    rfl
  | ok w =>
    -- a flat item stands for itself, and not for another evaluation
    obtain ⟨hItems, hOnce⟩ := h w hResolve
    dsimp only
    rw [hItems, interpret_resolved hResolve hOnce]
    cases d.interpret kind env item <;> rfl

/-- **A list of flat items is read item by item.** -/
theorem list_eq_collect {w : Value} {items : List Value} (hValue : d.resolve env d.value = .ok w)
    (hItems : w.items? = some items) (hFlat : ∀ item ∈ items, d.Flat env item) :
    d.list kind env = collect (d.interpret kind env) items := by
  -- so every group has one scalar
  have hGroups : collect (d.itemScalars kind env) items =
      (collect (d.interpret kind env) items).map (List.map fun s => [s]) := by
    rw [← collect_of_map]
    exact collect_congr fun item hItem => itemScalars_of_flat (hFlat item hItem)
  rw [list, hValue]
  dsimp only
  rw [hItems]
  dsimp only
  rw [hGroups]
  cases collect (d.interpret kind env) items with
  | error e => rfl
  | ok scalars =>
    -- every item is a group of its own
    exact congrArg Except.ok (List.flatMap_singleton' scalars)

theorem map_eq_collect {key value : ScalarKind} {entries : List (String × Value)}
    (hValue : d.resolve env d.value = .ok (.map entries)) :
    d.map key value env = collect (d.entry key value env) entries := by
  rw [map, hValue]

theorem list_of_resolve_error {e : Error} (h : d.resolve env d.value = .error e) :
    d.list kind env = .error e := by
  rw [list, h]

theorem map_of_resolve_error {key value : ScalarKind} {e : Error}
    (h : d.resolve env d.value = .error e) : d.map key value env = .error e := by
  rw [map, h]

end Deferred

/-! ## Typed reads -/

/-- A read of a deferred value as native values. -/
inductive Reading where
  | scalar (type : NativeType)
  | list (element : NativeType)
  | set (element : NativeType)
  | map (key value : NativeType)

namespace Reading

/-- The type of a field for what is read. -/
def type : Reading → FieldType
  | scalar type => .native type
  | list element => .list (.native element)
  | set element => .set (.native element)
  | map key value => .map (.native key) (.native value)

/-- What is read, as a value of the type of the field. -/
def read (reading : Reading) (d : Deferred) (env : Environment) : Outcome Typed :=
  match reading with
  | scalar type => (d.asScalar type env).map .native
  | list element => (d.asList element env).map fun items => .list (items.map .native)
  | set element => (d.asSet element env).map fun items => .set (items.map .native)
  | map key value =>
    (d.asMap key value env).map fun entries =>
      .map (entries.map fun e => (.native e.1, .native e.2))

/-- The scalars behind what is read. -/
def scalars (reading : Reading) (d : Deferred) (env : Environment) : Outcome Resolved :=
  match reading with
  | scalar type => (d.scalar type.kind env).map .scalar
  | list element => (d.list element.kind env).map fun items => .list (items.map .scalar)
  | set element => (d.set element.kind env).map fun items => .set (items.map .scalar)
  | map key value =>
    (d.map key.kind value.kind env).map fun entries =>
      .map (entries.map fun e => (.scalar e.1, .scalar e.2))

/-- The read is one of what the value is: as a list or a set of flat items if it evaluates to a
list or a set, as a map if it evaluates to a map, and as a scalar always. -/
def Suits (reading : Reading) (d : Deferred) (env : Environment) : Prop :=
  match reading with
  | scalar _ => True
  | list _ | set _ =>
    ∀ w, d.resolve env d.value = .ok w →
      ∃ items, w.items? = some items ∧ ∀ item ∈ items, d.Flat env item
  | map _ _ => ∀ w, d.resolve env d.value = .ok w → ∃ entries, w = .map entries

/-- Scalars as items of a native type. -/
theorem collect_convert (type : NativeType) (scalars : List Scalar) :
    collect (FieldType.native type).convert (scalars.map .scalar) =
      (collect type.ofScalar scalars).map (List.map .native) := by
  rw [collect_map, ← collect_of_map]
  rfl

theorem convert_list (element : NativeType) (scalars : List Scalar) :
    (list element).type.convert (.list (scalars.map .scalar)) =
      (collect element.ofScalar scalars).map fun items => .list (items.map .native) := by
  show (collect (FieldType.native element).convert (scalars.map .scalar)).map Typed.list = _
  rw [collect_convert]
  cases collect element.ofScalar scalars <;> rfl

theorem convert_set (element : NativeType) (scalars : List Scalar) :
    (set element).type.convert (.set (scalars.map .scalar)) =
      (collect element.ofScalar scalars).map fun items =>
        .set ((sortItems Native.compare items).map .native) := by
  show (collect (FieldType.native element).convert (scalars.map .scalar)).map _ = _
  rw [collect_convert]
  -- the values are sorted by the order of their scalars
  cases collect element.ofScalar scalars with
  | error e => rfl
  | ok items => exact congrArg (Except.ok ∘ Typed.set) (sortItems_map Typed.compare_native items)

theorem convertEntry_scalar (key value : NativeType) (e : Scalar × Scalar) :
    FieldType.convertEntry (FieldType.native key).convert (FieldType.native value).convert
        (.scalar e.1, .scalar e.2) =
      (Deferred.nativeEntry key value e).map (Prod.map .native .native) := by
  rw [FieldType.convertEntry, Deferred.nativeEntry, FieldType.convert, FieldType.convert]
  cases key.ofScalar e.1 with
  | error error => rfl
  | ok k => cases value.ofScalar e.2 <;> rfl

theorem convert_map (key value : NativeType) (entries : List (Scalar × Scalar)) :
    (map key value).type.convert (.map (entries.map fun e => (.scalar e.1, .scalar e.2))) =
      (collect (Deferred.nativeEntry key value) entries).map fun entries =>
        .map ((sortEntries Native.compare entries).map (Prod.map .native .native)) := by
  show (collect (FieldType.convertEntry _ _) _).map _ = _
  rw [collect_map, collect_congr fun e _ => convertEntry_scalar key value e, collect_of_map]
  cases collect (Deferred.nativeEntry key value) entries with
  | error e => rfl
  | ok natives =>
    exact congrArg (Except.ok ∘ Typed.map) (sortEntries_map Typed.compare_native _ natives)

/-- **A read turns the scalars into a value of the type of the field.** -/
theorem read_eq (reading : Reading) (d : Deferred) (env : Environment) :
    reading.read d env = reading.scalars d env >>= reading.type.convert := by
  cases reading with
  | scalar type =>
    rw [read, scalars, Deferred.asScalar]
    cases d.scalar type.kind env <;> rfl
  | list element =>
    rw [read, scalars, Deferred.asList]
    cases d.list element.kind env with
    | error e => rfl
    | ok scalars => exact (convert_list element scalars).symm
  | set element =>
    rw [read, scalars, Deferred.asSet]
    cases d.set element.kind env with
    -- a failed conversion fails both before anything is sorted
    | error e => rfl
    | ok scalars =>
      refine Eq.trans ?_ (convert_set element scalars).symm
      dsimp only
      cases collect element.ofScalar scalars <;> rfl
  | map key value =>
    rw [read, scalars, Deferred.asMap]
    cases d.map key.kind value.kind env with
    | error e => rfl
    | ok scalars =>
      refine Eq.trans ?_ (convert_map key value scalars).symm
      dsimp only
      cases collect (Deferred.nativeEntry key value) scalars <;> rfl

end Reading

/-! ## What the engine collects -/

/-- The mapper, with other bindings for its expressions. -/
def Mapper.withEnvironment (m : Mapper) (env : Environment) : Mapper :=
  { m with environment := env }

/-- The value as the mapper keeps it for later. -/
def Mapper.keep (m : Mapper) (v : Value) : Deferred :=
  ⟨v, some m.evaluator⟩

/-- The field with another type, and the shape this type implies. -/
def Field.retyped (field : Field) (type : FieldType) : Field :=
  { field with type, shape := type.shape }

namespace Mapping

variable {m : Mapper} {lower : Level}

theorem resolve_keep (v w : Value) : (m.keep v).resolve m.environment w = evaluate m w := by
  cases w <;> rfl

theorem sameValue_scalar (a b : Scalar) :
    Resolved.sameValue (.scalar a) (.scalar b) = a.equal b := by
  rw [Resolved.sameValue]

/-- Scalar elements are read the way a deferred value is. -/
theorem convertElement_scalar {kind : ScalarKind} (hUnconverted : Unconverted m (.scalar kind))
    (v item : Value) :
    convertElement m (lower.above m) (.scalar kind) item =
      Run.ofOutcome (((m.keep v).interpret kind m.environment item).map .scalar) := by
  rw [convertElement, if_neg nofun, substitute_of_unconverted hUnconverted]
  show (Run.ofOutcome ((m.keep v).interpret kind m.environment item) >>= fun s => pure _) >>= _ = _
  cases (m.keep v).interpret kind m.environment item <;> rfl

section
variable (hConverters : m.converters = none)
include hConverters

theorem bare_convertItemsFrom (v : Value) (kind : ScalarKind) (items : List Value) (index : Nat) :
    (convertItemsFrom m (lower.above m) (.scalar kind) index items).bare =
      (Run.ofOutcome
        ((collect ((m.keep v).interpret kind m.environment) items).map
          (List.map .scalar))).bare := by
  rw [← collect_of_map]
  induction items generalizing index with
  | nil => rfl
  | cons item rest ih =>
    rw [convertItemsFrom, convertElement_scalar (unconverted_of_none hConverters _) v, collect_cons]
    -- the index is only an annotation
    exact Run.bare_bind_ofOutcome (Run.bare_mapError (Error.rootCause_withinIndex index) _)
      fun r => Run.bare_bind_ofOutcome (ih (index + 1)) fun results => rfl

/-- A container of scalars ends with what the deferred read collects. -/
theorem bare_convertItems (lower : Level) {v : Value} (kind : ScalarKind)
    (hItems : ∀ w, evaluate m v = .ok w →
      ∃ items, w.items? = some items ∧ ∀ item ∈ items, (m.keep v).Flat m.environment item) :
    (convertItems m (lower.above m) (.scalar kind) v).bare =
      (Run.ofOutcome (((m.keep v).list kind m.environment).map (List.map .scalar))).bare := by
  unfold convertItems
  -- the value is evaluated once in both, and may fail there
  cases hValue : evaluate m v with
  | error e => rw [Deferred.list_of_resolve_error ((resolve_keep v v).trans hValue)]; rfl
  | ok w =>
    obtain ⟨items, hItems, hFlat⟩ := hItems w hValue
    rw [Deferred.list_eq_collect ((resolve_keep v v).trans hValue) hItems hFlat,
      Run.ofOutcome_ok_bind]
    -- of all outcomes only lists and sets have items
    cases w with
    | list items' | set items' =>
      obtain rfl : items' = items := Option.some.inj hItems
      exact bare_convertItemsFrom hConverters v kind items' 0
    | _ => cases hItems

theorem bare_convertEntry (v : Value) (key value : ScalarKind) (entry : String × Value) :
    (convertEntry m (lower.above m) (.scalar key) (.scalar value) entry).bare =
      (Run.ofOutcome (((m.keep v).entry key value m.environment entry).map
        fun e => (.scalar e.1, .scalar e.2))).bare := by
  -- the key is an annotation for the errors of both of its parts
  have hKey := Run.bare_mapError (Error.rootCause_withinKey entry.1)
    (Run.ofOutcome (((m.keep v).interpret key m.environment (.string entry.1)).map Resolved.scalar))
  have hElement := Run.bare_mapError (Error.rootCause_withinKey entry.1)
    (Run.ofOutcome (((m.keep v).interpret value m.environment entry.2).map Resolved.scalar))
  rw [convertEntry, convertElement_scalar (unconverted_of_none hConverters _) v,
    convertElement_scalar (unconverted_of_none hConverters _) v]
  refine (Run.bare_bind_ofOutcome hKey fun k => Run.bare_bind_pure hElement _).trans ?_
  rw [Deferred.entry]
  -- the key is converted first on both sides
  cases (m.keep v).interpret key m.environment (.string entry.1) with
  | error e => rfl
  | ok k => cases (m.keep v).interpret value m.environment entry.2 <;> rfl

theorem bare_convertEntryList (v : Value) (key value : ScalarKind)
    (entries : List (String × Value)) :
    (convertEntryList m (lower.above m) (.scalar key) (.scalar value) entries).bare =
      (Run.ofOutcome ((collect ((m.keep v).entry key value m.environment) entries).map
        (List.map fun e => (.scalar e.1, .scalar e.2)))).bare := by
  rw [← collect_of_map]
  induction entries with
  | nil => rfl
  | cons entry rest ih =>
    rw [convertEntryList, collect_cons]
    exact Run.bare_bind_ofOutcome (bare_convertEntry hConverters v key value entry)
      fun r => Run.bare_bind_ofOutcome ih fun results => rfl

/-- A map of scalars ends with what the deferred read collects. -/
theorem bare_convertEntries (lower : Level) {v : Value} (key value : ScalarKind)
    (hEntries : ∀ w, evaluate m v = .ok w → ∃ entries, w = .map entries) :
    (convertEntries m (lower.above m) (.scalar key) (.scalar value) v).bare =
      (Run.ofOutcome (((m.keep v).map key value m.environment).map
        (List.map fun e => (.scalar e.1, .scalar e.2)))).bare := by
  unfold convertEntries
  cases hValue : evaluate m v with
  | error e => rw [Deferred.map_of_resolve_error ((resolve_keep v v).trans hValue)]; rfl
  | ok w =>
    obtain ⟨entries, rfl⟩ := hEntries w hValue
    rw [Deferred.map_eq_collect ((resolve_keep v v).trans hValue), Run.ofOutcome_ok_bind]
    exact bare_convertEntryList hConverters v key value entries

/-- **The engine ends with the scalars of the read.** -/
theorem bare_interpret (lower : Level) (reading : Reading) {v : Value}
    (hSuits : reading.Suits (m.keep v) m.environment) :
    ((lower.above m).above m |>.interpret v reading.type.shape).bare =
      (Run.ofOutcome (reading.scalars (m.keep v) m.environment)).bare := by
  cases reading with
  | scalar type => exact Run.bare_bind_pure rfl Resolved.scalar
  | list element =>
    -- the items agree, and a list is made of them
    have hItems := bare_convertItems hConverters lower element.kind
      fun w h => hSuits w ((resolve_keep v v).trans h)
    refine (Run.bare_bind_pure hItems Resolved.list).trans ?_
    rw [Reading.scalars]
    cases (m.keep v).list element.kind m.environment <;> rfl
  | set element =>
    have hItems := bare_convertItems hConverters lower element.kind
      fun w h => hSuits w ((resolve_keep v v).trans h)
    refine (Run.bare_bind_pure hItems fun items =>
      Resolved.set (keepFirst Resolved.sameValue items)).trans ?_
    rw [Reading.scalars, Deferred.set]
    cases (m.keep v).list element.kind m.environment with
    | error e => rfl
    | ok scalars =>
      -- both keep the first of equal scalars
      exact congrArg (fun items => (Run.ofOutcome (.ok (Resolved.set items))).bare)
        (keepFirst_map sameValue_scalar scalars)
  | map key value =>
    have hEntries := bare_convertEntries hConverters lower key.kind value.kind
      fun w h => hSuits w ((resolve_keep v v).trans h)
    refine (Run.bare_bind_pure hEntries Resolved.map).trans ?_
    rw [Reading.scalars]
    cases (m.keep v).map key.kind value.kind m.environment <;> rfl

end

/-! ## Fields -/

/-- A field that holds something is the value itself, interpreted and converted. -/
theorem mapField_of_found {type : SectionType} {root : String} {source : Option (Dict Value)}
    {i : Instance} {field : Field} {t : FieldType} {v : Value}
    (hUnconverted : Unconverted m t.shape) (hAny : t.shape ≠ .any)
    (hSection : ∀ inner, t.shape ≠ .section inner)
    (hFound : Resolution.resolve m.store (fieldPath root field) source = .ok (some v))
    (hNull : v.isNull = false) :
    mapField m lower type root source i (field.retyped t) =
      lower.interpret v t.shape >>= fun r =>
        Run.ofOutcome (t.convert r) >>= fun value =>
          pure (i.assign field.chain field.name value) := by
  -- what was found is needed, so it is interpreted
  have hResolved : resolveField m lower root source (field.retyped t) t.shape =
      lower.interpret v t.shape >>= fun r => pure (some r) :=
    resolveField_of_needed hSection hFound (.inl hNull)
  -- the shape is given, so no hook decides it
  have hDecided : decidedShape type i (field.retyped t) = .ok t.shape := if_neg hAny
  rw [mapField, fieldValue, hDecided, Run.ofOutcome_ok_bind,
    substitute_of_unconverted hUnconverted]
  dsimp only
  rw [hResolved, bind_assoc, bind_assoc]
  rfl

/-- **Reading later is mapping now.** Where something is found for a field, the field is
assigned the value as it is if it is deferred. Whatever is read from that later, against any
environment, is what the field is assigned if it has the type that is read and the mapper
has the environment of the reader: the values are the same, and each fails exactly when the
other does, with the same root cause. -/
theorem read_later_agrees {m : Mapper} (hConverters : m.converters = none) (type : SectionType)
    {root : String} {source : Option (Dict Value)} (i : Instance) {field : Field} {v : Value}
    (hFound : Resolution.resolve m.store (fieldPath root field) source = .ok (some v))
    (hNull : v.isNull = false) (env : Environment) (reading : Reading)
    (hSuits : reading.Suits (m.keep v) env) (depth : Nat) :
    mapLocatedField m (level m (depth + 1)) type root source i (field.retyped .deferred) =
        pure (i.assign field.chain field.name (.deferred (m.keep v))) ∧
      (mapLocatedField (m.withEnvironment env) (level (m.withEnvironment env) (depth + 2)) type
          root source i (field.retyped reading.type)).AgreesWith
        (.ofOutcome ((reading.read (m.keep v) env).map (i.assign field.chain field.name))) := by
  constructor
  · -- deferred, the field takes the value as it is
    have hAny : FieldType.deferred.shape ≠ .any := by decide
    have hSection : ∀ inner, FieldType.deferred.shape ≠ .section inner := fun _ h => by cases h
    rw [mapLocatedField,
      mapField_of_found (unconverted_of_none hConverters _) hAny hSection hFound hNull]
    rfl
  · have hShape : reading.type.shape ≠ .any ∧ ∀ inner, reading.type.shape ≠ .section inner := by
      cases reading <;> exact ⟨nofun, nofun⟩
    apply Run.AgreesWith.of_bare_eq
    -- the engine has the scalars of the read, and converts them as the read does
    have hRead := Run.bare_bind_ofOutcome (g := reading.type.convert)
      (bare_interpret (m := m.withEnvironment env) hConverters
        (level (m.withEnvironment env) depth) reading hSuits) fun r => rfl
    rw [mapLocatedField, Run.bare_mapError,
      mapField_of_found (m := m.withEnvironment env) (unconverted_of_none hConverters _) hShape.1
        hShape.2 hFound hNull,
      ← bind_assoc, Reading.read_eq]
    · -- the assignment does not look at where the value comes from
      exact Run.bare_bind_pure hRead _
    · -- the field is added to an error and leaves its root cause
      intro e
      split
      · rfl
      · exact Error.rootCause_within _ e

/-- Sizes: one is bound later, and one of the others is the same then. -/
def laterSizes : Value :=
  .list [.expression ⟨"n", .variable "n"⟩, .string "1", .long 2]

def laterMapper : Mapper :=
  ⟨fun _ => .plain, .ofRoot [("sizes", laterSizes)], .interpreter, none, []⟩

/-- What the reader knows about the sizes. -/
def laterBindings : Environment := [("n", .long 2)]

theorem laterSizes_suit : (Reading.set .int).Suits (laterMapper.keep laterSizes) laterBindings := by
  intro w hValue
  obtain rfl : laterSizes = w := Except.ok.inj hValue
  refine ⟨_, rfl, List.forall_mem_cons.mpr ⟨?_, List.forall_mem_cons.mpr ⟨?_,
    List.forall_mem_cons.mpr ⟨?_, nofun⟩⟩⟩⟩
  all_goals
    rintro _ ⟨⟩
    exact ⟨rfl, rfl⟩

/-- The sizes are the same set, read later or mapped at once. -/
theorem laterSizes_read :
    laterMapper.converters = none ∧
      Resolution.resolve laterMapper.store (fieldPath "" (.ofType "sizes" .deferred)) none =
        .ok (some laterSizes) ∧
      laterSizes.isNull = false ∧
      (Reading.set .int).Suits (laterMapper.keep laterSizes) laterBindings ∧
      (mapLocatedField (laterMapper.withEnvironment laterBindings)
          (level (laterMapper.withEnvironment laterBindings) 2) .plain "" none (.blank "box")
          (Field.ofType "sizes" (.set (.native .int)))).Returns
        ((Instance.blank "box").assign [] "sizes" (.set [.native (.int 1), .native (.int 2)])) := by
  have hFound : Resolution.resolve laterMapper.store (fieldPath "" (.ofType "sizes" .deferred))
      none = .ok (some laterSizes) := rfl
  obtain ⟨-, hAgrees⟩ := read_later_agrees (m := laterMapper) rfl .plain (.blank "box") hFound rfl
    laterBindings (.set .int) laterSizes_suit 0
  exact ⟨rfl, hFound, rfl, laterSizes_suit,
    (hAgrees.returns _).mpr (Run.returns_ofOutcome.mpr rfl)⟩

end Mapping

end TypedConfig
