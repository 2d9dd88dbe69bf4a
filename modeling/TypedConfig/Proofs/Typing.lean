import TypedConfig.Proofs.Collect
import TypedConfig.Proofs.Distinct
import TypedConfig.Proofs.Run

/-!
# Type soundness of the mapping engine

The engine interprets a value under the shape of a field type and forgets the
type; assigning the field turns the outcome back into a value of the type. Both
are recursions of their own, one over shapes and levels of the engine, one over
field types. What ties them together is `Resolved.HasShape`: the outcomes that
interpreting under a shape can have when no converter takes part.

An outcome of the right shape may still not fit the type, because two types are
narrower than their shapes: an array has a fixed length, and the native types of
32 bits share the kinds of the wider ones. `FieldType.Misfit` lists these cases
and the places inside an outcome where they occur.

Main results:

* `Mapping.level_sound` — at every level of the engine, interpreting returns
  values of the shape and mapping a section returns an instance of it.
* `FieldType.assignable_of_hasShape` — a value of a type's shape is turned into
  one of the type, or misfits.
* `assignable_of_interpret` — both together, for interpreted values and for
  fields fetched from a configuration.
-/

namespace TypedConfig

/-! ## Values of a shape -/

/-- The value is one that interpreting under the shape can have as its outcome
when no converter takes part. A decided shape has replaced `any` by then, so
what is left of `any` is the raw value; nothing is of a custom shape. -/
inductive Resolved.HasShape : Resolved → Shape → Prop
  | scalar (s : Scalar) : HasShape (.scalar s) (.scalar s.kind)
  | list {items : List Resolved} {element : Shape} :
      (∀ item ∈ items, HasShape item element) → HasShape (.list items) (.list element)
  | set {items : List Resolved} {element : Shape} :
      (∀ item ∈ items, HasShape item element) → HasShape (.set items) (.set element)
  | array {items : List Resolved} {element : Shape} :
      (∀ item ∈ items, HasShape item element) → HasShape (.array items) (.array element)
  | map {entries : List (Resolved × Resolved)} {key value : Shape} :
      (∀ entry ∈ entries, HasShape entry.1 key) →
      (∀ entry ∈ entries, HasShape entry.2 value) → HasShape (.map entries) (.map key value)
  | section (i : Instance) : HasShape (.section i) (.section i.type)
  | deferred (d : Deferred) : HasShape (.deferred d) .deferred
  | raw (v : Value) : HasShape (.raw v) .raw
  | any (v : Value) : HasShape (.raw v) .any

/-! ## Scalars keep their kind -/

/-- A value taken as it is has the kind it was asked for. -/
theorem kind_of_matching? {kind : ScalarKind} {v : Value} {s : Scalar}
    (h : kind.matching? v = some s) : s.kind = kind := by
  unfold ScalarKind.matching? at h
  split at h <;> first | (cases h; rfl) | cases h

theorem kind_of_truncateDouble {x : Float} {s : Scalar}
    (h : ScalarKind.truncateDouble x = .ok s) : s.kind = .long := by
  unfold ScalarKind.truncateDouble at h
  split at h
  · cases h
    rfl
  · cases h

theorem kind_of_coerceLongText {t : String} {s : Scalar}
    (h : ScalarKind.coerceLongText t = .ok s) : s.kind = .long := by
  unfold ScalarKind.coerceLongText at h
  -- whatever the text is read as is a whole number
  split at h
  · split at h
    · cases h
      rfl
    · cases h
  · split at h
    · split at h
      · exact kind_of_truncateDouble h
      · cases h
    · cases h

theorem kind_of_coerceString {v : Value} {s : Scalar}
    (h : ScalarKind.coerceString v = .ok s) : s.kind = .string := by
  unfold ScalarKind.coerceString at h
  split at h <;> cases h <;> rfl

theorem kind_of_coerceLong {v : Value} {s : Scalar}
    (h : ScalarKind.coerceLong v = .ok s) : s.kind = .long := by
  unfold ScalarKind.coerceLong at h
  split at h
  -- doubles and texts go through tables of their own
  case h_4 =>
    split at h
    · exact kind_of_truncateDouble h
    · cases h
  case h_5 => exact kind_of_coerceLongText h
  all_goals cases h <;> rfl

theorem kind_of_coerceDouble {v : Value} {s : Scalar}
    (h : ScalarKind.coerceDouble v = .ok s) : s.kind = .double := by
  unfold ScalarKind.coerceDouble at h
  split at h
  case h_5 =>
    split at h
    · cases h
      rfl
    · cases h
  all_goals cases h <;> rfl

theorem kind_of_coerceBoolean {v : Value} {s : Scalar}
    (h : ScalarKind.coerceBoolean v = .ok s) : s.kind = .boolean := by
  unfold ScalarKind.coerceBoolean at h
  split at h
  case h_5 =>
    split at h
    · cases h
      rfl
    · split at h
      · cases h
        rfl
      · cases h
  all_goals cases h <;> rfl

/-- Each of the four coercion tables yields scalars of its own kind only. -/
theorem kind_of_coerce {kind : ScalarKind} {v : Value} {s : Scalar}
    (h : kind.coerce v = .ok s) : s.kind = kind := by
  cases kind with
  | string => exact kind_of_coerceString h
  | long => exact kind_of_coerceLong h
  | double => exact kind_of_coerceDouble h
  | boolean => exact kind_of_coerceBoolean h

theorem kind_of_interpret {d : Deferred} {kind : ScalarKind} {env : Environment} {v : Value}
    {s : Scalar} (h : d.interpret kind env v = .ok s) : s.kind = kind := by
  unfold Deferred.interpret at h
  split at h
  · next hMatch =>
    cases h
    exact kind_of_matching? hMatch
  · split at h
    · cases h
    · -- the result of an expression is taken as it is where it can be, too
      split at h
      · next hMatch =>
        cases h
        exact kind_of_matching? hMatch
      · exact kind_of_coerce h

/-- A scalar read has the kind it was asked for, whatever the evaluator does. -/
theorem kind_of_scalar {d : Deferred} {kind : ScalarKind} {env : Environment} {s : Scalar}
    (h : d.scalar kind env = .ok s) : s.kind = kind :=
  kind_of_interpret h

/-! ## The engine returns values of the shape -/

namespace Mapping

/-- What a level of the engine promises to the level above: interpreting returns
values of the shape, and mapping a section returns an instance of it. -/
structure Level.Sound (lower : Level) : Prop where
  interpret : ∀ {v : Value} {shape : Shape} {r : Resolved},
    (lower.interpret v shape).Returns r → r.HasShape shape
  mapSection : ∀ {name root : String} {source : Option (Dict Value)} {i : Instance},
    (lower.mapSection name root source).Returns i → i.type = name

theorem Level.bottom_sound : Level.bottom.Sound where
  interpret h := absurd h Run.not_returns_tooDeep
  mapSection h := absurd h Run.not_returns_tooDeep

section
variable {m : Mapper} (hConverters : m.converters = none) {lower : Level} (hLower : lower.Sound)
include hConverters hLower

/-- Without converters an element is interpreted under its own shape. -/
theorem hasShape_of_convertElement {shape : Shape} {v : Value} {r : Resolved}
    (h : (convertElement m lower shape v).Returns r) : r.HasShape shape := by
  unfold convertElement at h
  split at h
  · exact absurd h Run.not_returns_fail
  · -- without a registry no shape is substituted and nothing is applied afterwards
    rw [hConverters] at h
    obtain ⟨r', hInterpret, hApply⟩ := Run.returns_bind.mp h
    have hEq : r' = r := Run.returns_pure.mp hApply
    exact hEq ▸ hLower.interpret hInterpret

theorem hasShape_of_convertItemsFrom {element : Shape} :
    ∀ {items : List Value} {index : Nat} {rs : List Resolved},
      (convertItemsFrom m lower element index items).Returns rs →
      ∀ r ∈ rs, r.HasShape element := by
  intro items
  induction items with
  | nil =>
    intro index rs h r hr
    rw [← Run.returns_pure.mp h] at hr
    cases hr
  | cons item rest ih =>
    intro index rs h r hr
    obtain ⟨first, hFirst, h⟩ := Run.returns_bind.mp h
    obtain ⟨others, hOthers, h⟩ := Run.returns_bind.mp h
    rw [← Run.returns_pure.mp h] at hr
    rcases List.mem_cons.mp hr with rfl | hr
    · exact hasShape_of_convertElement hConverters hLower (Run.returns_mapError.mp hFirst)
    · exact ih hOthers r hr

theorem hasShape_of_convertItems {element : Shape} {v : Value} {rs : List Resolved}
    (h : (convertItems m lower element v).Returns rs) : ∀ r ∈ rs, r.HasShape element := by
  obtain ⟨evaluated, -, h⟩ := Run.returns_bind.mp h
  split at h
  · exact hasShape_of_convertItemsFrom hConverters hLower h
  · exact hasShape_of_convertItemsFrom hConverters hLower h
  · -- what is no list falls back on no items at all
    intro r hr
    rw [← Run.returns_pure.mp h] at hr
    cases hr

theorem hasShape_of_convertEntry {key element : Shape} {entry : String × Value}
    {r : Resolved × Resolved} (h : (convertEntry m lower key element entry).Returns r) :
    r.1.HasShape key ∧ r.2.HasShape element := by
  obtain ⟨k, hKey, h⟩ := Run.returns_bind.mp h
  obtain ⟨v, hValue, h⟩ := Run.returns_bind.mp h
  rw [← Run.returns_pure.mp h]
  exact ⟨hasShape_of_convertElement hConverters hLower (Run.returns_mapError.mp hKey),
    hasShape_of_convertElement hConverters hLower (Run.returns_mapError.mp hValue)⟩

theorem hasShape_of_convertEntryList {key element : Shape} :
    ∀ {entries : List (String × Value)} {rs : List (Resolved × Resolved)},
      (convertEntryList m lower key element entries).Returns rs →
      ∀ r ∈ rs, r.1.HasShape key ∧ r.2.HasShape element := by
  intro entries
  induction entries with
  | nil =>
    intro rs h r hr
    rw [← Run.returns_pure.mp h] at hr
    cases hr
  | cons entry rest ih =>
    intro rs h r hr
    obtain ⟨first, hFirst, h⟩ := Run.returns_bind.mp h
    obtain ⟨others, hOthers, h⟩ := Run.returns_bind.mp h
    rw [← Run.returns_pure.mp h] at hr
    rcases List.mem_cons.mp hr with rfl | hr
    · exact hasShape_of_convertEntry hConverters hLower hFirst
    · exact ih hOthers r hr

theorem hasShape_of_convertEntries {key element : Shape} {v : Value}
    {rs : List (Resolved × Resolved)} (h : (convertEntries m lower key element v).Returns rs) :
    ∀ r ∈ rs, r.1.HasShape key ∧ r.2.HasShape element := by
  obtain ⟨evaluated, -, h⟩ := Run.returns_bind.mp h
  split at h
  · exact hasShape_of_convertEntryList hConverters hLower h
  · -- and what is no map on no entries
    intro r hr
    rw [← Run.returns_pure.mp h] at hr
    cases hr

end

/-- One more level keeps the promise: elements are left to the level below, and an
instance is completed as one of the section that was asked for. -/
theorem Level.Sound.above {m : Mapper} (hConverters : m.converters = none) {lower : Level}
    (hLower : lower.Sound) : (lower.above m).Sound where
  interpret := by
    intro v shape r h
    change (Mapping.interpret m lower v shape).Returns r at h
    unfold Mapping.interpret at h
    cases shape with
    | raw => rw [← Run.returns_pure.mp h]; exact .raw v
    | any => rw [← Run.returns_pure.mp h]; exact .any v
    | deferred => rw [← Run.returns_pure.mp h]; exact .deferred _
    | scalar kind =>
      -- a scalar has the kind that was asked for
      obtain ⟨s, hScalar, h⟩ := Run.returns_bind.mp h
      rw [← Run.returns_pure.mp h, ← kind_of_scalar (Run.returns_ofOutcome.mp hScalar)]
      exact .scalar s
    | list element =>
      -- items are elements, whatever container they are kept in
      obtain ⟨items, hItems, h⟩ := Run.returns_bind.mp h
      rw [← Run.returns_pure.mp h]
      exact .list (hasShape_of_convertItems hConverters hLower hItems)
    | set element =>
      obtain ⟨items, hItems, h⟩ := Run.returns_bind.mp h
      rw [← Run.returns_pure.mp h]
      -- dropping duplicates leaves nothing that was not an item before
      refine .set fun r hr => ?_
      exact hasShape_of_convertItems hConverters hLower hItems r ((keepFirst_sublist items).subset hr)
    | array element =>
      obtain ⟨items, hItems, h⟩ := Run.returns_bind.mp h
      rw [← Run.returns_pure.mp h]
      exact .array (hasShape_of_convertItems hConverters hLower hItems)
    | map key element =>
      obtain ⟨entries, hEntries, h⟩ := Run.returns_bind.mp h
      rw [← Run.returns_pure.mp h]
      have hShapes := hasShape_of_convertEntries hConverters hLower hEntries
      exact .map (fun entry hMem => (hShapes entry hMem).1) fun entry hMem => (hShapes entry hMem).2
    | «section» name =>
      -- a section returns instances of its own
      obtain ⟨i, hSection, h⟩ := Run.returns_bind.mp h
      rw [← Run.returns_pure.mp h, ← hLower.mapSection hSection]
      exact .section i
    | custom name => exact absurd h Run.not_returns_fail
  mapSection := by
    intro name root source i h
    change (Mapping.mapSection m lower name root source).Returns i at h
    unfold Mapping.mapSection at h
    dsimp only at h
    split at h
    · exact absurd h Run.not_returns_fail
    · -- whatever the hook made of the instance, it is completed as one of this section
      obtain ⟨fields, -, h⟩ := Run.returns_bind.mp h
      obtain ⟨mapped, -, h⟩ := Run.returns_bind.mp h
      obtain ⟨parsed, -, h⟩ := Run.returns_bind.mp h
      rw [← Run.returns_pure.mp h]
      rfl

/-- **The engine is sound at every level**: it returns values of the shape it was
given, and instances of the section it was given. -/
theorem level_sound {m : Mapper} (hConverters : m.converters = none) (depth : Nat) :
    (level m depth).Sound := by
  induction depth with
  | zero => exact Level.bottom_sound
  | succ depth ih => exact ih.above hConverters

/-- A field's value has the shape it was resolved under, also where a section is
mapped at its path and not from the fetched value. -/
theorem hasShape_of_resolveField {m : Mapper} (hConverters : m.converters = none) (depth : Nat)
    {root : String} {source : Option (Dict Value)} {field : Field} {shape : Shape} {r : Resolved}
    (h : (resolveField m (level m depth) root source field shape).Returns (some r)) :
    r.HasShape shape := by
  have hSound := level_sound hConverters depth
  obtain ⟨found, -, h⟩ := Run.returns_bind.mp h
  dsimp only at h
  split at h
  · -- nothing was resolved
    cases Run.returns_pure.mp h
  · split at h
    · -- a section, mapped at its path
      obtain ⟨i, hSection, h⟩ := Run.returns_bind.mp h
      cases Run.returns_pure.mp h
      rw [← hSound.mapSection hSection]
      exact .section i
    · -- anything else, interpreted from the fetched value
      obtain ⟨r', hInterpret, h⟩ := Run.returns_bind.mp h
      cases Run.returns_pure.mp h
      exact hSound.interpret hInterpret

end Mapping

/-! ## Turning values of a shape into values of a type -/

namespace FieldType

/-- The outcome of a value that has the shape of a type and still does not fit
it. Somewhere inside stands an array of another length than its type has, a whole
number that takes more than 32 bits, or a finite number beyond the largest
single; the error is the one of that place. -/
inductive Misfit : FieldType → Resolved → Error → Prop
  | length {element : FieldType} {length : Nat} {items : List Resolved}
      (hLength : items.length ≠ length) :
      Misfit (.array element length) (.array items)
        (.typeMismatch ("array of " ++ String.ofList (Nat.toDigits 10 length) ++ " elements")
          (String.ofList (Nat.toDigits 10 items.length) ++ " elements"))
  | int {n : Long} (hRange : n.toInt < -2147483648 ∨ 2147483647 < n.toInt) :
      Misfit (.native .int) (.scalar (.long n)) (.coercion "i32" (Long.text n))
  | single {x : Float} (hFinite : x.isFinite = true) (hRange : Double.largestSingle < x.abs) :
      Misfit (.native .single) (.scalar (.double x))
        (.coercion "f32" ("out of range " ++ Double.text x))
  | listItem {element : FieldType} {items : List Resolved} {item : Resolved} {e : Error} :
      item ∈ items → Misfit element item e → Misfit (.list element) (.list items) e
  | setItem {element : FieldType} {items : List Resolved} {item : Resolved} {e : Error} :
      item ∈ items → Misfit element item e → Misfit (.set element) (.set items) e
  | arrayItem {element : FieldType} {length : Nat} {items : List Resolved} {item : Resolved}
      {e : Error} :
      item ∈ items → Misfit element item e → Misfit (.array element length) (.array items) e
  | mapKey {key value : FieldType} {entries : List (Resolved × Resolved)}
      {entry : Resolved × Resolved} {e : Error} :
      entry ∈ entries → Misfit key entry.1 e → Misfit (.map key value) (.map entries) e
  | mapValue {key value : FieldType} {entries : List (Resolved × Resolved)}
      {entry : Resolved × Resolved} {e : Error} :
      entry ∈ entries → Misfit value entry.2 e → Misfit (.map key value) (.map entries) e
  | optional {type : FieldType} {r : Resolved} {e : Error} :
      Misfit type r e → Misfit (.optional type) r e

/-- The value becomes one of the type, or fails to with the error of a misfit. -/
def Assignable (type : FieldType) (r : Resolved) : Prop :=
  (∃ t, type.convert r = .ok t) ∨ ∃ e, type.convert r = .error e ∧ type.Misfit r e

/-! ### Collecting -/

/-- Items that are all assignable are collected, or one of them misfits. -/
theorem collect_of_assignable {type : FieldType} {items : List Resolved}
    (hItems : ∀ item ∈ items, type.Assignable item) :
    (∃ ts, collect type.convert items = .ok ts) ∨
      ∃ e, collect type.convert items = .error e ∧ ∃ item ∈ items, type.Misfit item e := by
  cases h : collect type.convert items with
  | ok ts => exact Or.inl ⟨ts, rfl⟩
  | error e =>
    obtain ⟨item, hMem, hError⟩ := exists_of_collect_error h
    -- the item with the error is not the one that was converted, so it misfits
    refine Or.inr ⟨e, rfl, item, hMem, ?_⟩
    rcases hItems item hMem with ⟨t, hOk⟩ | ⟨e', hError', hMisfit⟩
    · rw [hOk] at hError
      cases hError
    · rw [hError'] at hError
      cases hError
      exact hMisfit

/-- The same for the entries of a map; the error is that of a key or a value. -/
theorem collect_of_assignable_entries {key value : FieldType}
    {entries : List (Resolved × Resolved)} (hKeys : ∀ entry ∈ entries, key.Assignable entry.1)
    (hValues : ∀ entry ∈ entries, value.Assignable entry.2) :
    (∃ ts, collect (convertEntry key.convert value.convert) entries = .ok ts) ∨
      ∃ e, collect (convertEntry key.convert value.convert) entries = .error e ∧
        ∃ entry ∈ entries, key.Misfit entry.1 e ∨ value.Misfit entry.2 e := by
  cases h : collect (convertEntry key.convert value.convert) entries with
  | ok ts => exact Or.inl ⟨ts, rfl⟩
  | error e =>
    obtain ⟨entry, hMem, hError⟩ := exists_of_collect_error h
    refine Or.inr ⟨e, rfl, entry, hMem, ?_⟩
    unfold convertEntry at hError
    -- the key is converted first, so its error comes before that of the value
    rcases hKeys entry hMem with ⟨k, hKey⟩ | ⟨e', hKey, hMisfit⟩
    · rcases hValues entry hMem with ⟨v, hValue⟩ | ⟨e', hValue, hMisfit⟩
      · rw [hKey, hValue] at hError
        cases hError
      · rw [hKey, hValue] at hError
        cases hError
        exact Or.inr hMisfit
    · rw [hKey] at hError
      cases hError
      exact Or.inl hMisfit

/-! ### One case for each type -/

theorem convert_native_assignable {type : NativeType} {s : Scalar} (hKind : s.kind = type.kind) :
    (native type).Assignable (.scalar s) := by
  -- of the scalars of the type's kind only those that are too wide are refused
  cases type with
  | string => cases s <;> cases hKind; exact Or.inl ⟨_, rfl⟩
  | long => cases s <;> cases hKind; exact Or.inl ⟨_, rfl⟩
  | double => cases s <;> cases hKind; exact Or.inl ⟨_, rfl⟩
  | boolean => cases s <;> cases hKind; exact Or.inl ⟨_, rfl⟩
  | int =>
    cases s <;> cases hKind
    next n =>
    by_cases hRange : -2147483648 ≤ n.toInt ∧ n.toInt ≤ 2147483647
    · exact Or.inl ⟨_, by simp [convert, NativeType.ofScalar, NativeType.narrow?, hRange]; rfl⟩
    · refine Or.inr ⟨_, ?_, .int (n := n) (by omega)⟩
      simp [convert, NativeType.ofScalar, NativeType.narrow?, hRange, Except.map, NativeType.name]
  | single =>
    cases s <;> cases hKind
    next x =>
    by_cases hRange : (x.isFinite && decide (Double.largestSingle < x.abs)) = true
    · have hBoth := Bool.and_eq_true_iff.mp hRange
      refine Or.inr ⟨_, ?_, .single (x := x) hBoth.1 (of_decide_eq_true hBoth.2)⟩
      simp [convert, NativeType.ofScalar, Double.toSingle?, hBoth.1, of_decide_eq_true hBoth.2,
        Except.map, NativeType.name]
    · refine Or.inl ⟨.native (.single (Binary.ofDouble x).toSingle), ?_⟩
      simp only [convert, NativeType.ofScalar, Double.toSingle?, if_neg hRange]
      rfl

/-- **A value of a type's shape is assignable to the type.** The induction is on
the type; what the shape says about the items is what the cases need about the
parts. -/
theorem assignable_of_hasShape {type : FieldType} {r : Resolved}
    (h : r.HasShape type.shape) : type.Assignable r := by
  induction type generalizing r with
  | native type =>
    rw [shape] at h
    -- several native types share a kind, so the kind is kept as an equation
    generalize hKind : type.kind = kind at h
    cases h with
    | scalar s => exact convert_native_assignable hKind.symm
  | list element ih =>
    rw [shape] at h
    cases h with
    | @list items _ hItems =>
      rcases collect_of_assignable fun item hMem => ih (hItems item hMem) with
        ⟨ts, hOk⟩ | ⟨e, hError, item, hMem, hMisfit⟩
      · exact Or.inl ⟨.list ts, by simp [convert, elements, Resolved.elements?, hOk, Except.map]⟩
      · exact Or.inr ⟨e, by simp [convert, elements, Resolved.elements?, hError, Except.map],
          .listItem hMem hMisfit⟩
  | set element ih =>
    rw [shape] at h
    cases h with
    | @set items _ hItems =>
      rcases collect_of_assignable fun item hMem => ih (hItems item hMem) with
        ⟨ts, hOk⟩ | ⟨e, hError, item, hMem, hMisfit⟩
      · exact Or.inl ⟨.set (sortItems Typed.compare ts),
          by simp [convert, elements, Resolved.elements?, hOk, Except.map]⟩
      · exact Or.inr ⟨e, by simp [convert, elements, Resolved.elements?, hError, Except.map],
          .setItem hMem hMisfit⟩
  | array element length ih =>
    rw [shape] at h
    cases h with
    | @array items _ hItems =>
      rcases collect_of_assignable fun item hMem => ih (hItems item hMem) with
        ⟨ts, hOk⟩ | ⟨e, hError, item, hMem, hMisfit⟩
      · -- the length is checked last, when all items have been converted
        have hCount : ts.length = items.length := length_of_collect hOk
        by_cases hLength : items.length = length
        · exact Or.inl ⟨.array ts,
            by simp [convert, elements, Resolved.elements?, hOk, hCount, hLength]⟩
        · exact Or.inr ⟨_,
            by simp [convert, elements, Resolved.elements?, hOk, hCount, hLength],
            .length hLength⟩
      · exact Or.inr ⟨e, by simp [convert, elements, Resolved.elements?, hError],
          .arrayItem hMem hMisfit⟩
  | map key value ihKey ihValue =>
    rw [shape] at h
    cases h with
    | @map entries _ _ hKeys hValues =>
      rcases collect_of_assignable_entries (fun entry hMem => ihKey (hKeys entry hMem))
          (fun entry hMem => ihValue (hValues entry hMem)) with
        ⟨ts, hOk⟩ | ⟨e, hError, entry, hMem, hMisfit | hMisfit⟩
      · exact Or.inl ⟨.map (sortEntries Typed.compare ts), by simp [convert, hOk, Except.map]⟩
      · exact Or.inr ⟨e, by simp [convert, hError, Except.map], .mapKey hMem hMisfit⟩
      · exact Or.inr ⟨e, by simp [convert, hError, Except.map], .mapValue hMem hMisfit⟩
  | optional type ih =>
    rw [shape] at h
    rcases ih h with ⟨t, hOk⟩ | ⟨e, hError, hMisfit⟩
    · exact Or.inl ⟨.present t, by simp [convert, hOk, Except.map]⟩
    · exact Or.inr ⟨e, by simp [convert, hError, Except.map], .optional hMisfit⟩
  | deferred =>
    cases h with
    | deferred d => exact Or.inl ⟨.deferred d, rfl⟩
  | raw =>
    cases h with
    | raw v => exact Or.inl ⟨.raw v, rfl⟩
  | any => exact Or.inl ⟨.any r, rfl⟩
  | «section» name =>
    cases h with
    | «section» i => exact Or.inl ⟨.section i, by simp [convert]⟩
  | custom name =>
    -- no value has a custom shape
    cases h

end FieldType

/-! ## Assigning what was interpreted -/

/-- **A field can be assigned what its value was interpreted as.** Without
converters, whatever a value is interpreted as under the shape of a type, and
whatever a field is resolved to under it, becomes a value of the type; the only
errors left are an array of another length and a number that does not fit into 32
bits, each at its place inside the value. -/
theorem assignable_of_interpret {m : Mapper} (hConverters : m.converters = none)
    (type : FieldType) (depth : Nat) :
    (∀ (v : Value) (r : Resolved),
      ((Mapping.level m depth).interpret v type.shape).Returns r → type.Assignable r) ∧
    ∀ (root : String) (source : Option (Dict Value)) (field : Field) (r : Resolved),
      (Mapping.resolveField m (Mapping.level m depth) root source field type.shape).Returns
        (some r) → type.Assignable r :=
  ⟨fun _ _ h =>
      FieldType.assignable_of_hasShape ((Mapping.level_sound hConverters depth).interpret h),
    fun _ _ _ _ h =>
      FieldType.assignable_of_hasShape (Mapping.hasShape_of_resolveField hConverters depth h)⟩

/-- A section with one number of 32 bits. -/
def portFamily : Family := fun _ =>
  { SectionType.plain with fields := [.ofType "number" (.native .int)] }

def portMapper : Mapper := ⟨portFamily, .empty, .interpreter, none, []⟩

/-- Pairs of ports by name. -/
def portType : FieldType := .map (.native .string) (.array (.section "port") 2)

def portValue : Value := .map [("http", .list [.map [("number", .string " 80 ")]])]

/-- One port where two belong. -/
def portResolved : Resolved :=
  .map [(.ofText "http", .array [.section
    ⟨"port", [("number", .native (.int 80))],
      some [⟨"number", .scalar .long, false, false, false⟩], []⟩])]

theorem port_assignable :
    ((Mapping.level portMapper 5).interpret portValue portType.shape).Returns portResolved ∧
      portType.Assignable portResolved :=
  ⟨rfl, (assignable_of_interpret (m := portMapper) rfl portType 5).1 portValue portResolved rfl⟩

end TypedConfig
