import TypedConfig.Proofs.Collect
import TypedConfig.Proofs.Run

/-!
# Failing runs of the engine

The engine goes through items, entries and fields one after the other and stops at
the first that fails. For each of its functions one lemma says where a failing run
has failed, with everything that went before it.

Main results:

* `convertItemsFrom_fails_iff` / `convertEntryList_fails_iff` / `mapFields_fails_iff` —
  a list of runs fails at the first that does.
* `resolveField_fails_iff` / `fieldValue_fails_iff` / `mapField_fails_iff` /
  `mapSection_fails_iff` — what can go wrong with a field and with a section.
* `resolveField_of_needed` / `resolveField_section_of_needed` / `fieldValue_of_resolved` —
  what a field comes to once it is known to be needed.
* `substitute_of_unconverted` — what no converter applies to is read under its own shape.
-/

namespace TypedConfig.Mapping

variable {m : Mapper} {lower : Level}

theorem convertElement_fails_iff {shape : Shape} {v : Value} {e : Error} :
    (convertElement m lower shape v).Fails e ↔
      (shape = .any ∧ .genericTypeMissing .undecided = e) ∨
        shape ≠ .any ∧
          ((lower.interpret v (ConverterRegistry.substitute m.converters shape).1).Fails e ∨
            ∃ r, (lower.interpret v (ConverterRegistry.substitute m.converters shape).1).Returns r ∧
              (applyConverter m (ConverterRegistry.substitute m.converters shape).2 r).Fails e) := by
  unfold convertElement
  split
  · -- without a shape the element fails as such, and with no other error
    next hAny => simp [hAny]
  · next hAny =>
    rw [Run.fails_bind]
    simp [hAny]

/-- A list is interpreted up to the first item that fails, whose index the error gets. -/
theorem convertItemsFrom_fails_iff {element : Shape} {index : Nat} {items : List Value}
    {e : Error} :
    (convertItemsFrom m lower element index items).Fails e ↔
      ∃ before item after, items = before ++ item :: after ∧
        (∀ other ∈ before, ∃ r, (convertElement m lower element other).Returns r) ∧
        ∃ cause, (convertElement m lower element item).Fails cause ∧
          cause.withinIndex (index + before.length) = e := by
  induction items generalizing index with
  | nil =>
    refine iff_of_false Run.not_fails_pure ?_
    rintro ⟨before, item, after, hItems, -⟩
    simp at hItems
  | cons first rest ih =>
    rw [convertItemsFrom, Run.fails_bind, Run.fails_mapError]
    -- a located error is that of the first item, and a returned value goes on into the rest
    simp only [Run.fails_bind, Run.not_fails_pure, and_false, exists_false, or_false,
      Run.returns_mapError]
    constructor
    · rintro (⟨cause, hFails, hSame⟩ | ⟨r, hFirst, hRest⟩)
      · exact ⟨[], first, rest, rfl, fun _ h => absurd h List.not_mem_nil, cause, hFails, hSame⟩
      · -- among the rest an item stands one place further on than it does in the list
        obtain ⟨before, item, after, rfl, hBefore, cause, hFails, hSame⟩ := ih.mp hRest
        refine ⟨first :: before, item, after, rfl, List.forall_mem_cons.mpr ⟨⟨r, hFirst⟩, hBefore⟩,
          cause, hFails, ?_⟩
        rw [← hSame, List.length_cons]
        congr 1
        omega
    · -- the failing item is the first one, or it is among the rest
      rintro ⟨before, item, after, hItems, hBefore, cause, hFails, hSame⟩
      cases before with
      | nil =>
        obtain ⟨rfl, -⟩ := List.cons.inj hItems
        exact .inl ⟨cause, hFails, hSame⟩
      | cons other before =>
        obtain ⟨rfl, rfl⟩ := List.cons.inj hItems
        obtain ⟨⟨r, hFirst⟩, hOthers⟩ := List.forall_mem_cons.mp hBefore
        refine .inr ⟨r, hFirst, ih.mpr ⟨before, item, after, rfl, hOthers, cause, hFails, ?_⟩⟩
        rw [← hSame, List.length_cons]
        congr 1
        omega

theorem convertEntry_fails_iff {key element : Shape} {entry : String × Value} {e : Error} :
    (convertEntry m lower key element entry).Fails e ↔
      (∃ cause, (convertElement m lower key (.string entry.1)).Fails cause ∧
        cause.withinKey entry.1 = e) ∨
      (∃ k, (convertElement m lower key (.string entry.1)).Returns k) ∧
        ∃ cause, (convertElement m lower element entry.2).Fails cause ∧
          cause.withinKey entry.1 = e := by
  unfold convertEntry
  simp only [Run.fails_bind, Run.fails_mapError, Run.returns_mapError, Run.not_fails_pure,
    and_false, exists_false, or_false, exists_and_right]

/-- A map is interpreted up to the first entry that fails. -/
theorem convertEntryList_fails_iff {key element : Shape} {entries : List (String × Value)}
    {e : Error} :
    (convertEntryList m lower key element entries).Fails e ↔
      ∃ before entry after, entries = before ++ entry :: after ∧
        (∀ other ∈ before, ∃ r, (convertEntry m lower key element other).Returns r) ∧
        (convertEntry m lower key element entry).Fails e := by
  induction entries with
  | nil =>
    refine iff_of_false Run.not_fails_pure ?_
    rintro ⟨before, entry, after, hEntries, -⟩
    simp at hEntries
  | cons first rest ih =>
    -- the error is that of the first entry, or the first one is fine and it comes from the rest
    rw [convertEntryList, Run.fails_bind, exists_split_cons_iff, ← ih]
    simp only [Run.fails_bind, Run.not_fails_pure, and_false, exists_false, or_false,
      exists_and_right]

/-- Fields are mapped up to the first that fails. -/
theorem mapFields_fails_iff {type : SectionType} {root : String} {source : Option (Dict Value)}
    {i : Instance} {fields : List Field} {e : Error} :
    (mapFields m lower type root source i fields).Fails e ↔
      ∃ before field after j, fields = before ++ field :: after ∧
        (mapFields m lower type root source i before).Returns j ∧
        (mapLocatedField m lower type root source j field).Fails e := by
  induction fields generalizing i with
  | nil =>
    refine iff_of_false Run.not_fails_pure ?_
    rintro ⟨before, field, after, j, hFields, -⟩
    simp at hFields
  | cons first rest ih =>
    rw [mapFields, Run.fails_bind]
    constructor
    · rintro (hFails | ⟨j, hFirst, hRest⟩)
      · exact ⟨[], first, rest, i, rfl, Run.returns_pure.mpr rfl, hFails⟩
      · -- the instance that the first field made is what the others go on from
        obtain ⟨before, field, after, k, rfl, hBefore, hFails⟩ := ih.mp hRest
        refine ⟨first :: before, field, after, k, rfl, ?_, hFails⟩
        rw [mapFields, Run.returns_bind]
        exact ⟨j, hFirst, hBefore⟩
    · -- with nothing mapped before it, the field is the first and the instance the given one
      rintro ⟨before, field, after, k, hFields, hBefore, hFails⟩
      cases before with
      | nil =>
        obtain ⟨rfl, -⟩ := List.cons.inj hFields
        rw [Run.returns_pure.mp hBefore]
        exact .inl hFails
      | cons other before =>
        obtain ⟨rfl, rfl⟩ := List.cons.inj hFields
        rw [mapFields, Run.returns_bind] at hBefore
        obtain ⟨j, hFirst, hBefore⟩ := hBefore
        exact .inr ⟨j, hFirst, ih.mpr ⟨before, field, after, k, rfl, hBefore, hFails⟩⟩

theorem mapSection_fails_iff {name root : String} {source : Option (Dict Value)} {e : Error} :
    (Mapping.mapSection m lower name root source).Fails e ↔
      ((m.family name).constructible = false ∧ .noDefaultConstructor name = e) ∨
      (m.family name).constructible = true ∧
        ((m.family name).discover name = .error e ∨
        ∃ fields, (m.family name).discover name = .ok fields ∧
          ((mapFields m lower (m.family name) root source (.blank name)
            (SectionType.mappingOrder fields)).Fails e ∨
          ∃ i, (mapFields m lower (m.family name) root source (.blank name)
              (SectionType.mappingOrder fields)).Returns i ∧
            (m.family name).afterParsing i (fields.map Field.toFieldSpec) = .error e)) := by
  unfold Mapping.mapSection
  dsimp only
  cases hConstructible : (m.family name).constructible with
  | false => simp
  | true =>
    rw [if_neg (by simp)]
    -- the steps are made in this order, and each one fails only after those before it succeeded
    simp only [Run.fails_bind, Run.fails_ofOutcome, Run.returns_ofOutcome, Run.not_fails_pure,
      and_false, exists_false, or_false, Bool.true_eq_false, false_and, false_or, true_and]

/-- The field's value is resolved at all: something is there, or the field is always
resolved. -/
def Needed (field : Field) (found : Option Value) : Prop :=
  (found.getD .null).isNull = false ∨ field.always = true

theorem needed_iff {field : Field} {found : Option Value} :
    Needed field found ↔ ¬((found.getD .null).isNull && !field.always) = true := by
  unfold Needed
  cases (found.getD .null).isNull with
  | false => simp
  | true => simp

/-- A field that is needed and has the shape of a section is what the section is mapped to. -/
theorem resolveField_section_of_needed {root : String} {source : Option (Dict Value)}
    {field : Field} {inner : String} {found : Option Value}
    (hFound : Resolution.resolve m.store (fieldPath root field) source = .ok found)
    (hNeeded : Needed field found) :
    resolveField m lower root source field (.section inner) =
      lower.mapSection inner (fieldPath root field) source >>= fun i =>
        pure (some (.section i)) := by
  unfold resolveField
  dsimp only
  -- a field that is needed gets past the check for a path without a value
  rw [hFound, Run.ofOutcome_ok_bind, if_neg (needed_iff.mp hNeeded)]

/-- A field that is needed and has any other shape is the value itself, interpreted. -/
theorem resolveField_of_needed {root : String} {source : Option (Dict Value)} {field : Field}
    {shape : Shape} {found : Option Value} (hShape : ∀ inner, shape ≠ .section inner)
    (hFound : Resolution.resolve m.store (fieldPath root field) source = .ok found)
    (hNeeded : Needed field found) :
    resolveField m lower root source field shape =
      lower.interpret (found.getD .null) shape >>= fun r => pure (some r) := by
  unfold resolveField
  dsimp only
  rw [hFound, Run.ofOutcome_ok_bind, if_neg (needed_iff.mp hNeeded)]
  -- of all shapes only that of a section is not interpreted
  cases shape with
  | «section» inner => exact absurd rfl (hShape inner)
  | _ => rfl

/-- No converter is applied to what has the shape. -/
def Unconverted (m : Mapper) (shape : Shape) : Prop :=
  ∀ registry, m.converters = some registry → registry.converterFor shape = none

theorem unconverted_of_none (h : m.converters = none) (shape : Shape) : Unconverted m shape := by
  intro registry hRegistry
  rw [h] at hRegistry
  cases hRegistry

theorem substitute_of_unconverted {shape : Shape} (h : Unconverted m shape) :
    ConverterRegistry.substitute m.converters shape = (shape, none) := by
  cases hRegistry : m.converters with
  | none => rfl
  | some registry =>
    unfold ConverterRegistry.substitute
    dsimp only
    rw [h registry hRegistry]

/-- A field that is resolved to something has that as its value, once converted. -/
theorem fieldValue_of_resolved {type : SectionType} {root : String} {source : Option (Dict Value)}
    {i : Instance} {field : Field} {shape : Shape} {resolved : Run Resolved}
    (hDecided : decidedShape type i field = .ok shape)
    (hResolved : resolveField m lower root source field
        (ConverterRegistry.substitute m.converters shape).1 =
      resolved >>= fun r => pure (some r)) :
    fieldValue m lower type root source i field =
      (resolved >>= applyConverter m (ConverterRegistry.substitute m.converters shape).2) >>=
        fun r => pure (some r) := by
  rw [fieldValue, hDecided, Run.ofOutcome_ok_bind]
  dsimp only
  -- the converter comes after either of the two, so it does not matter how they are nested
  rw [hResolved, bind_assoc, bind_assoc]
  rfl

theorem resolveField_fails_iff {root : String} {source : Option (Dict Value)} {field : Field}
    {shape : Shape} {e : Error} :
    (resolveField m lower root source field shape).Fails e ↔
      Resolution.resolve m.store (fieldPath root field) source = .error e ∨
      ∃ found, Resolution.resolve m.store (fieldPath root field) source = .ok found ∧
        Needed field found ∧
        ((∃ inner, shape = .section inner ∧
          (lower.mapSection inner (fieldPath root field) source).Fails e) ∨
        (∀ inner, shape ≠ .section inner) ∧
          (lower.interpret (found.getD .null) shape).Fails e) := by
  unfold resolveField
  dsimp only
  rw [Run.fails_bind, Run.fails_ofOutcome]
  simp only [Run.returns_ofOutcome]
  -- once the path is resolved, all depends on whether the field is needed
  refine or_congr_right (exists_congr fun found => and_congr_right fun _ => ?_)
  by_cases hNeeded : Needed field found
  · rw [if_neg (needed_iff.mp hNeeded)]
    cases shape with
    | «section» inner =>
      dsimp only
      rw [Run.fails_bind]
      simp [hNeeded]
    | _ =>
      dsimp only
      rw [Run.fails_bind]
      simp [hNeeded]
  · -- a field that is not needed comes up empty, and that is no failure
    rw [if_pos (Decidable.not_not.mp (mt needed_iff.mpr hNeeded))]
    exact iff_of_false Run.not_fails_pure fun h => hNeeded h.1

theorem fieldValue_fails_iff {type : SectionType} {root : String} {source : Option (Dict Value)}
    {i : Instance} {field : Field} {e : Error} :
    (fieldValue m lower type root source i field).Fails e ↔
      decidedShape type i field = .error e ∨
      ∃ shape, decidedShape type i field = .ok shape ∧
        ((resolveField m lower root source field
          (ConverterRegistry.substitute m.converters shape).1).Fails e ∨
        ∃ r, (resolveField m lower root source field
            (ConverterRegistry.substitute m.converters shape).1).Returns (some r) ∧
          (applyConverter m (ConverterRegistry.substitute m.converters shape).2 r).Fails e) := by
  unfold fieldValue
  rw [Run.fails_bind, Run.fails_ofOutcome]
  simp only [Run.returns_ofOutcome]
  refine or_congr_right (exists_congr fun shape => and_congr_right fun _ => ?_)
  rw [Run.fails_bind]
  -- after a value that was found comes the converter, and after none a default, which cannot fail
  refine or_congr_right ⟨?_, ?_⟩
  · rintro ⟨resolved, hReturns, hFails⟩
    cases resolved with
    | none => exact absurd hFails Run.not_fails_pure
    | some r =>
      dsimp only at hFails
      rw [Run.fails_bind] at hFails
      simp only [Run.not_fails_pure, and_false, exists_false, or_false] at hFails
      exact ⟨r, hReturns, hFails⟩
  · rintro ⟨r, hReturns, hFails⟩
    exact ⟨some r, hReturns, Run.fails_bind.mpr (.inl hFails)⟩

theorem mapField_fails_iff {type : SectionType} {root : String} {source : Option (Dict Value)}
    {i : Instance} {field : Field} {e : Error} :
    (mapField m lower type root source i field).Fails e ↔
      (fieldValue m lower type root source i field).Fails e ∨
      ∃ r, (fieldValue m lower type root source i field).Returns (some r) ∧
        field.type.convert r = .error e := by
  unfold mapField
  rw [Run.fails_bind]
  -- what is assigned has to be of the type of the field, and nothing to assign is always right
  refine or_congr_right ⟨?_, ?_⟩
  · rintro ⟨value, hReturns, hFails⟩
    cases value with
    | none => exact absurd hFails Run.not_fails_pure
    | some r =>
      dsimp only at hFails
      rw [Run.fails_bind] at hFails
      simp only [Run.fails_ofOutcome, Run.not_fails_pure, and_false, exists_false,
        or_false] at hFails
      exact ⟨r, hReturns, hFails⟩
  · rintro ⟨r, hReturns, hFails⟩
    exact ⟨some r, hReturns, Run.fails_bind.mpr (.inl (Run.fails_ofOutcome.mpr hFails))⟩

end TypedConfig.Mapping
