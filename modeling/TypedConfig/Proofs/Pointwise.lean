import TypedConfig.Proofs.Error.Cause
import TypedConfig.Proofs.Error.Failing
import TypedConfig.Proofs.Extension
import Mathlib.Data.List.Forall2

/-!
# Containers, point by point

The elements of a container take another way through the engine than the values of fields.
A field is fetched from a path, may be absent, and is mapped from its path if it is a
section; an element is at hand, is never absent, and is mapped from the map that it is.
Still an element is resolved to what a field of the same shape is resolved to where the
element stands at the path of the field, converters included, and a list is resolved to
the list of these.

The two ways do not need the same number of levels: a section that is an element is mapped
one level further down. So the statements here are about all levels at once, and `Run.Ends`
says what a run comes to if it gets as many levels as it needs.

Main results:

* `Run.exists_depth_of_forall` — levels that are enough for each of several runs.
* `Run.EndAlike.of_matchedBy` — runs that are matched on each level end alike.
* `convertItemsFrom_returns_iff` — a list of items is what its items are.
* `elements_end_ok_iff` / `elements_end_error_iff` — the same for their outcomes.
* `Single.resolve_ends_iff` — a field on its own ends like the element.
* `resolve_list_pointwise` — a list field is the pointwise image of single fields.
-/

namespace TypedConfig

/-! ## Runs with as many levels as they need -/

namespace Run

variable {α β : Type _}

/-- With some number of levels, the run ends with the outcome. -/
def Ends (run : Nat → Run α) (o : Outcome α) : Prop :=
  ∃ depth, (run depth).run = some o

/-- What a run ends with, it ends with on more levels too. -/
def Grows (run : Nat → Run α) : Prop :=
  ∀ depth depth', depth ≤ depth' → (run depth).ExtendedBy (run depth')

variable {run : Nat → Run α}

theorem Grows.ends_succ_iff (h : Grows run) {o : Outcome α} :
    Ends (fun depth => run (depth + 1)) o ↔ Ends run o := by
  constructor
  · rintro ⟨depth, hRun⟩
    exact ⟨depth + 1, hRun⟩
  · rintro ⟨depth, hRun⟩
    exact ⟨depth, h depth (depth + 1) (Nat.le_succ depth) o hRun⟩

theorem ends_ok_bind_pure {f : α → β} {b : β} :
    Ends (fun depth => run depth >>= fun a => pure (f a)) (.ok b) ↔
      ∃ a, f a = b ∧ Ends run (.ok a) := by
  constructor
  · -- the last step returns at once, so the depth of the first part is enough
    rintro ⟨depth, hRun⟩
    obtain ⟨a, hReturns, hPure⟩ := returns_bind.mp hRun
    exact ⟨a, returns_pure.mp hPure, depth, hReturns⟩
  · rintro ⟨a, rfl, depth, hRun⟩
    exact ⟨depth, returns_bind.mpr ⟨a, hRun, returns_pure.mpr rfl⟩⟩

theorem ends_error_bind_pure {f : α → β} {e : Error} :
    Ends (fun depth => run depth >>= fun a => pure (f a)) (.error e) ↔ Ends run (.error e) := by
  refine exists_congr fun depth => fails_bind.trans (or_iff_left ?_)
  rintro ⟨a, -, hPure⟩
  exact not_fails_pure hPure

/-- What holds of each item from some number of levels on holds of all of them from some
number on. -/
theorem exists_depth_of_forall {P : Nat → α → Prop}
    (hMore : ∀ depth depth' a, depth ≤ depth' → P depth a → P depth' a) {items : List α}
    (h : ∀ a ∈ items, ∃ depth, P depth a) : ∃ depth, ∀ a ∈ items, P depth a := by
  induction items with
  | nil => exact ⟨0, nofun⟩
  | cons first rest ih =>
    obtain ⟨⟨depth, hFirst⟩, hRest⟩ := List.forall_mem_cons.mp h
    obtain ⟨depth', hOthers⟩ := ih hRest
    -- the larger of the two numbers of levels is enough for the first item and for the rest
    refine ⟨max depth depth', List.forall_mem_cons.mpr ⟨?_, fun a hMem => ?_⟩⟩
    · exact hMore depth _ first (Nat.le_max_left ..) hFirst
    · exact hMore depth' _ a (Nat.le_max_right ..) (hOthers a hMem)

variable {R : α → β → Prop} {run' : Nat → Run β}

/-- With as many levels as they need, the runs return values that are related, or fail with the
same error. -/
structure EndAlike (R : α → β → Prop) (run : Nat → Run α) (run' : Nat → Run β) : Prop where
  there : ∀ a, Ends run (.ok a) → ∃ b, Ends run' (.ok b) ∧ R a b
  back : ∀ b, Ends run' (.ok b) → ∃ a, Ends run (.ok a) ∧ R a b
  error_iff : ∀ e, Ends run (.error e) ↔ Ends run' (.error e)

/-- Runs that are matched on each level, in both directions, end alike. -/
theorem EndAlike.of_matchedBy (hThere : ∀ depth, MatchedBy R (run depth) (run' depth))
    (hBack : ∀ depth, MatchedBy (fun b a => R a b) (run' depth) (run depth)) :
    EndAlike R run run' where
  there := by
    rintro a ⟨depth, hReturns⟩
    -- a returned value is matched on the level where it is returned
    obtain ⟨b, hReturns', hRelated⟩ := (hThere depth).returns a hReturns
    exact ⟨b, ⟨depth, hReturns'⟩, hRelated⟩
  back := by
    rintro b ⟨depth, hReturns⟩
    obtain ⟨a, hReturns', hRelated⟩ := (hBack depth).returns b hReturns
    exact ⟨a, ⟨depth, hReturns'⟩, hRelated⟩
  -- an error is the same on both sides, so it needs no relation
  error_iff := fun e => exists_congr fun depth => ⟨(hThere depth).fails e, (hBack depth).fails e⟩

/-- It does not matter if one of the runs needs a level more. -/
theorem EndAlike.of_succ (hGrows : Grows run') (h : EndAlike R run fun depth => run' (depth + 1)) :
    EndAlike R run run' where
  there := by
    intro a hEnds
    -- the value of the deeper run is one of the other run, a level further down
    obtain ⟨b, hEnds', hRelated⟩ := h.there a hEnds
    exact ⟨b, hGrows.ends_succ_iff.mp hEnds', hRelated⟩
  back := fun b hEnds => h.back b (hGrows.ends_succ_iff.mpr hEnds)
  error_iff := fun e => (h.error_iff e).trans hGrows.ends_succ_iff

theorem Ends.unique (hGrows : Grows run) {o o' : Outcome α} (h : Ends run o) (h' : Ends run o') :
    o = o' := by
  obtain ⟨depth, hRun⟩ := h
  obtain ⟨depth', hRun'⟩ := h'
  have hMost := hGrows depth (max depth depth') (Nat.le_max_left ..) o hRun
  have hMost' := hGrows depth' (max depth depth') (Nat.le_max_right ..) o' hRun'
  exact Option.some.inj (hMost.symm.trans hMost')

/-- A sequence fails where its second part does, once the first one has returned. -/
theorem Ends.bind_error {γ : Type _} {next : α → Nat → Run β} {rest : Nat → β → Run γ} {a : α}
    {e : Error} (hGrows : Grows run) (hGrowsNext : Grows (next a)) (hFirst : Ends run (.ok a))
    (hNext : Ends (next a) (.error e)) :
    Ends (fun depth => run depth >>= fun a => next a depth >>= rest depth) (.error e) := by
  obtain ⟨depth, hReturns⟩ := hFirst
  obtain ⟨depth', hFails⟩ := hNext
  -- either part may need more levels than the other, so both are run with the most of them
  have hReturnsMost := hGrows depth (max depth depth') (Nat.le_max_left ..) _ hReturns
  have hFailsMost := hGrowsNext depth' (max depth depth') (Nat.le_max_right ..) _ hFails
  exact ⟨max depth depth', fails_bind.mpr (.inr ⟨a, hReturnsMost, fails_bind.mpr (.inl hFailsMost)⟩)⟩

/-- What fails on one level goes on failing on the one above. -/
theorem Ends.above {above : Nat → Run β} {next : α → Run β} {e : Error}
    (h : Ends run (.error e)) (hAbove : ∀ depth, above (depth + 1) = run depth >>= next) :
    Ends above (.error e) := by
  obtain ⟨depth, hFails⟩ := h
  refine ⟨depth + 1, ?_⟩
  rw [hAbove]
  exact fails_bind.mpr (.inl hFails)

end Run

namespace Mapping

variable {m : Mapper} {lower : Level} {shape : Shape}

/-! ## Elements -/

/-- The items of a list are interpreted one by one. -/
theorem convertItemsFrom_returns_iff {items : List Value} {index : Nat} {rs : List Resolved} :
    (convertItemsFrom m lower shape index items).Returns rs ↔
      List.Forall₂ (fun item r => (convertElement m lower shape item).Returns r) items rs := by
  induction items generalizing index rs with
  | nil =>
    rw [convertItemsFrom, Run.returns_pure, List.forall₂_nil_left_iff]
    exact eq_comm
  | cons item items ih =>
    rw [convertItemsFrom, List.forall₂_cons_left_iff]
    simp only [Run.returns_bind, Run.returns_mapError, Run.returns_pure, ih]
    -- the error that would be located never comes up in a run that returns
    constructor
    · rintro ⟨r, hItem, results, hRest, rfl⟩
      exact ⟨r, results, hItem, hRest, rfl⟩
    · rintro ⟨r, results, hItem, hRest, rfl⟩
      exact ⟨r, hItem, results, hRest, rfl⟩

theorem convertElement_eq (hShape : shape ≠ .any) (v : Value) :
    convertElement m lower shape v =
      lower.interpret v (ConverterRegistry.substitute m.converters shape).1 >>=
        applyConverter m (ConverterRegistry.substitute m.converters shape).2 :=
  if_neg hShape

/-- An element of a container, over more and more levels. -/
def element (m : Mapper) (shape : Shape) (v : Value) (depth : Nat) : Run Resolved :=
  convertElement m (level m depth) shape v

/-- No path at all: stores agree there whatever they hold. -/
theorem agreeOn_nothing (s t : Store) : s.AgreeOn t fun _ => False :=
  ⟨nofun, nofun⟩

/-- A store agrees with itself everywhere. -/
theorem agreeOn_self (s : Store) : s.AgreeOn s fun _ => True :=
  ⟨fun _ _ => rfl, fun _ _ _ => trivial⟩

/-- An element does not depend on the store, and more levels do not change it. -/
theorem element_extendedBy (s t : Store) (v : Value) {depth depth' : Nat}
    (hDepth : depth ≤ depth') :
    (element (m.over s) shape v depth).ExtendedBy (element (m.over t) shape v depth') :=
  convertElement_extendedBy (level_extendedOn (agreeOn_nothing s t) hDepth) shape v

theorem element_grows (v : Value) : Run.Grows (element m shape v) :=
  fun _ _ hDepth => element_extendedBy m.store m.store v hDepth

theorem element_over (s : Store) (v : Value) (depth : Nat) :
    element (m.over s) shape v depth = element m shape v depth :=
  (element_extendedBy s m.store v (Nat.le_refl depth)).antisymm
    (element_extendedBy m.store s v (Nat.le_refl depth))

/-- The items of a list, over more and more levels. -/
def elements (m : Mapper) (shape : Shape) (items : List Value) (depth : Nat) :
    Run (List Resolved) :=
  convertItemsFrom m (level m depth) shape 0 items

/-- **A list of items ends with what its items end with.** -/
theorem elements_end_ok_iff {items : List Value} {rs : List Resolved} :
    Run.Ends (elements m shape items) (.ok rs) ↔
      List.Forall₂ (fun item r => Run.Ends (element m shape item) (.ok r)) items rs := by
  constructor
  · -- what the list needs is enough for each item
    rintro ⟨depth, hRun⟩
    exact (convertItemsFrom_returns_iff.mp hRun).imp fun item r hItem => ⟨depth, hItem⟩
  · intro h
    obtain ⟨hLength, hZip⟩ := List.forall₂_iff_zip.mp h
    -- each item has its levels, and the most of them are enough for all
    obtain ⟨depth, hAll⟩ := Run.exists_depth_of_forall
      (P := fun depth (pair : Value × Resolved) => (element m shape pair.1 depth).Returns pair.2)
      (fun depth depth' pair hDepth => element_grows pair.1 depth depth' hDepth _)
      fun pair hPair => hZip hPair
    exact ⟨depth, convertItemsFrom_returns_iff.mpr
      (List.forall₂_iff_zip.mpr ⟨hLength, fun hPair => hAll _ hPair⟩)⟩

/-- **A list of items fails at the first item that does.** -/
theorem elements_end_error_iff {items : List Value} {e : Error} :
    Run.Ends (elements m shape items) (.error e) ↔
      ∃ before item after, items = before ++ item :: after ∧
        (∀ other ∈ before, ∃ r, Run.Ends (element m shape other) (.ok r)) ∧
        ∃ cause, Run.Ends (element m shape item) (.error cause) ∧
          cause.withinIndex before.length = e := by
  constructor
  · rintro ⟨depth, hRun⟩
    obtain ⟨before, item, after, hItems, hBefore, cause, hFails, hSame⟩ :=
      convertItemsFrom_fails_iff.mp hRun
    -- the count of the items starts at zero, so the index is the number of those before
    rw [Nat.zero_add] at hSame
    refine ⟨before, item, after, hItems, fun other hOther => ?_, cause, ⟨depth, hFails⟩, hSame⟩
    obtain ⟨r, hReturns⟩ := hBefore other hOther
    exact ⟨r, depth, hReturns⟩
  · rintro ⟨before, item, after, hItems, hBefore, cause, ⟨depth, hFails⟩, hSame⟩
    -- the items before the failing one agree on a number of levels
    obtain ⟨depth', hOthers⟩ := Run.exists_depth_of_forall
      (P := fun depth other => ∃ r, (element m shape other depth).Returns r)
      (fun depth depth' other hDepth ⟨r, hReturns⟩ =>
        ⟨r, element_grows other depth depth' hDepth _ hReturns⟩)
      fun other hOther => by
        obtain ⟨r, depth, hReturns⟩ := hBefore other hOther
        exact ⟨depth, r, hReturns⟩
    -- the larger of that number and what the failing item needs serves all of them
    refine ⟨max depth depth', convertItemsFrom_fails_iff.mpr
      ⟨before, item, after, hItems, fun other hOther => ?_, cause, ?_, ?_⟩⟩
    · obtain ⟨r, hReturns⟩ := hOthers other hOther
      exact ⟨r, element_grows other depth' _ (Nat.le_max_right ..) _ hReturns⟩
    · exact element_grows item depth _ (Nat.le_max_left ..) _ hFails
    · rw [Nat.zero_add, hSame]

end Mapping

/-! ## Fields on their own -/

/-- A field that is always resolved and has a shape, as declared or as its section decides on the
instance so far, in a store of its own. -/
structure Single (shape : Shape) where
  store : Store
  type : SectionType
  root : String
  seen : Instance
  field : Field
  always : field.always = true
  decided : Mapping.decidedShape type seen field = .ok shape

namespace Single

variable {m : Mapper} {shape : Shape}

/-- The path the field is read from. -/
def path (single : Single shape) : String :=
  Mapping.fieldPath single.root single.field

/-- What is at the path; null if nothing is. -/
def value (single : Single shape) : Value :=
  (single.store.get? single.path).getD .null

/-- What the field is resolved to, over more and more levels. -/
def resolve (m : Mapper) (single : Single shape) (depth : Nat) : Run (Option Resolved) :=
  Mapping.fieldValue (m.over single.store) (Mapping.level (m.over single.store) depth) single.type
    single.root none single.seen single.field

/-- The field stands where a section can be mapped, if that is what it is read as: its path is
empty or not blank, there is a map, and the fields of the section have proper names. -/
def Mappable (m : Mapper) (single : Single shape) : Prop :=
  ∀ inner, (ConverterRegistry.substitute m.converters shape).1 = .section inner →
    Mapping.ProperNames m inner ∧ (single.path = "" ∨ Text.isBlank single.path = false) ∧
      ∃ sub, single.value = .map sub

theorem resolve_found (single : Single shape) :
    Resolution.resolve (m.over single.store).store
        (Mapping.fieldPath single.root single.field) none =
      .ok (single.store.get? single.path) := rfl

/-- Outside sections, a field is resolved like an element on the same level. -/
theorem resolve_of_not_section (single : Single shape) (hShape : shape ≠ .any)
    (hSection : ∀ inner, (ConverterRegistry.substitute m.converters shape).1 ≠ .section inner)
    (depth : Nat) :
    single.resolve m depth =
      Mapping.element m shape single.value depth >>= fun r => pure (some r) := by
  -- the substitute is no section, so the value that was found is interpreted under it
  have hResolved : Mapping.resolveField (m.over single.store)
      (Mapping.level (m.over single.store) depth) single.root none single.field
        (ConverterRegistry.substitute m.converters shape).1 = _ :=
    Mapping.resolveField_of_needed hSection single.resolve_found (.inr single.always)
  rw [resolve, Mapping.fieldValue_of_resolved single.decided hResolved,
    ← Mapping.element_over single.store, Mapping.element, Mapping.convertElement_eq hShape]
  rfl

/-- Below its path, a section is mapped as it is from the map that stands there. -/
theorem mapSection_path (single : Single shape) {inner : String} {sub : Dict Value}
    (hNames : Mapping.ProperNames m inner)
    (hPath : single.path = "" ∨ Text.isBlank single.path = false)
    (hSub : single.value = .map sub) (depth : Nat) :
    (Mapping.level (m.over single.store) depth).mapSection inner single.path none =
      (Mapping.level (m.over single.store) depth).mapSection inner "" (some sub) := by
  -- the path leads to the map, as the value that is found there is one
  have hMap : single.store.get? single.path = some (.map sub) := by
    rw [value] at hSub
    cases hFound : single.store.get? single.path with
    | none => rw [hFound] at hSub; cases hSub
    | some v => rw [hFound] at hSub; exact congrArg some hSub
  -- then the map can take the place of the store
  have hRelocates := Mapping.level_relocates_below (m := m.over single.store) hPath hMap depth
    inner "" hNames (.inl rfl)
  rwa [Path.join_empty_of_not_blank hPath] at hRelocates

/-- A section at a place of its own is mapped like one that is an element, a level below. -/
theorem resolve_of_section (single : Single shape) (hShape : shape ≠ .any) {inner : String}
    (hSection : (ConverterRegistry.substitute m.converters shape).1 = .section inner)
    (hMappable : single.Mappable m) (depth : Nat) :
    single.resolve m depth =
      Mapping.element m shape single.value (depth + 1) >>= fun r => pure (some r) := by
  obtain ⟨hNames, hPath, sub, hSub⟩ := hMappable inner hSection
  -- in the store, the section is mapped at the path of the field
  have hResolved : Mapping.resolveField (m.over single.store)
      (Mapping.level (m.over single.store) depth) single.root none single.field
        (ConverterRegistry.substitute m.converters shape).1 =
      ((Mapping.level (m.over single.store) depth).mapSection inner "" (some sub) >>= fun i =>
        pure (.section i)) >>= fun r => pure (some r) := by
    rw [hSection, Mapping.resolveField_section_of_needed single.resolve_found (.inr single.always),
      ← single.mapSection_path hNames hPath hSub, bind_assoc]
    rfl
  -- as an element, it is mapped from its map, and that takes a level
  have hElement : Mapping.element (m.over single.store) shape single.value (depth + 1) =
      ((Mapping.level (m.over single.store) depth).mapSection inner "" (some sub) >>= fun i =>
        pure (.section i)) >>=
          Mapping.applyConverter m (ConverterRegistry.substitute m.converters shape).2 := by
    rw [Mapping.element, Mapping.convertElement_eq hShape]
    show (Mapping.level (m.over single.store) (depth + 1)).interpret single.value
      (ConverterRegistry.substitute m.converters shape).1 >>= _ = _
    rw [hSection, hSub]
    rfl
  -- both are followed by the same converter
  rw [resolve, Mapping.fieldValue_of_resolved single.decided hResolved,
    ← Mapping.element_over single.store, hElement]
  rfl

/-- **A field on its own ends like the element**: with what the element is resolved to, or with
the error of the element. -/
theorem resolve_ends_iff (single : Single shape) (hShape : shape ≠ .any)
    (hMappable : single.Mappable m) :
    (∀ r, Run.Ends (single.resolve m) (.ok (some r)) ↔
      Run.Ends (Mapping.element m shape single.value) (.ok r)) ∧
    ∀ e, Run.Ends (single.resolve m) (.error e) ↔
      Run.Ends (Mapping.element m shape single.value) (.error e) := by
  -- the two cases differ only in the levels they need, and that is no part of an outcome
  have hElement : ∀ o : Outcome (Option Resolved), Run.Ends (single.resolve m) o ↔
      Run.Ends (fun depth => Mapping.element m shape single.value depth >>= fun r =>
        pure (some r)) o := by
    intro o
    -- a section is fetched at its path, everything else is interpreted like the element
    by_cases hSection : ∃ inner,
        (ConverterRegistry.substitute m.converters shape).1 = .section inner
    · -- the element has the same outcomes once it may use one more level
      obtain ⟨inner, hSection⟩ := hSection
      have hGrows : Run.Grows fun depth =>
          Mapping.element m shape single.value depth >>= fun r => pure (some r) :=
        fun depth depth' hDepth =>
          (Mapping.element_grows single.value depth depth' hDepth).bind fun r => .refl _
      rw [← hGrows.ends_succ_iff]
      exact exists_congr fun depth => by
        rw [single.resolve_of_section hShape hSection hMappable depth]
    · -- elsewhere the two use the same levels
      refine exists_congr fun depth => ?_
      rw [single.resolve_of_not_section hShape (not_exists.mp hSection) depth]
  constructor
  · intro r
    rw [hElement, Run.ends_ok_bind_pure]
    simp only [Option.some.injEq, exists_eq_left]
  · intro e
    rw [hElement, Run.ends_error_bind_pure]

end Single

namespace Mapping

variable {m : Mapper} {shape : Shape} {type : SectionType} {root : String}
  {source : Option (Dict Value)} {seen : Instance} {field : Field}

/-! ## List fields -/

theorem fieldValue_grows :
    Run.Grows fun depth => fieldValue m (level m depth) type root source seen field := by
  intro depth depth' hDepth
  have hStore := agreeOn_self m.store
  exact fieldValue_extendedBy (level_extendedOn hStore hDepth) hStore (fun _ => trivial) type seen
    field

/-- A list is interpreted as the list of its elements, a level below. -/
theorem interpret_list {v w : Value} {items : List Value} (hValue : evaluate m v = .ok w)
    (hItems : w.items? = some items) (depth : Nat) :
    (level m (depth + 1)).interpret v (.list shape) =
      elements m shape items depth >>= fun rs => pure (.list rs) := by
  -- past the expression, if it is one, the items are interpreted
  show convertItems m (level m depth) shape v >>= _ = _
  rw [convertItems, hValue, Run.ofOutcome_ok_bind]
  -- only a list or a set has items
  cases w with
  | list items' | set items' =>
    obtain rfl : items' = items := Option.some.inj hItems
    rfl
  | _ => cases hItems

/-- Where a list has no converter of its own, a list field that is found is resolved to the list
of its elements. -/
theorem fieldValue_list
    (hRegistry : ∀ registry, m.converters = some registry →
      registry.converterFor (.list shape) = none)
    (hDecided : decidedShape type seen field = .ok (.list shape)) {v w : Value}
    (hFound : Resolution.resolve m.store (fieldPath root field) source = .ok (some v))
    (hValue : evaluate m v = .ok w) {items : List Value} (hItems : w.items? = some items)
    (depth : Nat) :
    fieldValue m (level m (depth + 1)) type root source seen field =
      elements m shape items depth >>= fun rs => pure (some (.list rs)) := by
  -- the list is read as itself, and nothing converts it
  have hSubstitute := substitute_of_unconverted hRegistry
  -- it is not null either, so no default takes its place
  have hNull : v.isNull = false := by
    cases v with
    | null => cases hValue; cases hItems
    | _ => rfl
  -- and it is no section
  have hSection : ∀ inner, Shape.list shape ≠ .section inner := fun _ => nofun
  have hResolved : resolveField m (level m (depth + 1)) root source field
      (ConverterRegistry.substitute m.converters (.list shape)).1 =
      (elements m shape items depth >>= fun rs => pure (.list rs)) >>= fun r => pure (some r) := by
    rw [hSubstitute, resolveField_of_needed hSection hFound (.inl hNull), Option.getD_some,
      interpret_list hValue hItems]
  rw [fieldValue_of_resolved hDecided hResolved, hSubstitute, bind_assoc, bind_assoc]
  rfl

/-- **A list field is the pointwise image of single fields.** A field that finds a list, a set, or
an expression that evaluates to one, is resolved to the list of what single fields are resolved to,
each where it finds one of the items. It fails exactly when one of these does and those before it
do not, with the error of that one at its index. -/
theorem resolve_list_pointwise (hShape : shape ≠ .any)
    (hRegistry : ∀ registry, m.converters = some registry →
      registry.converterFor (.list shape) = none)
    (hDecided : decidedShape type seen field = .ok (.list shape)) {v w : Value}
    (hFound : Resolution.resolve m.store (fieldPath root field) source = .ok (some v))
    (hValue : evaluate m v = .ok w) {singles : List (Single shape)}
    (hItems : w.items? = some (singles.map Single.value))
    (hMappable : ∀ single ∈ singles, single.Mappable m) :
    (∀ value, Run.Ends (fun depth => fieldValue m (level m depth) type root source seen field)
        (.ok value) ↔
      ∃ rs, value = some (.list rs) ∧
        List.Forall₂ (fun single r => Run.Ends (single.resolve m) (.ok (some r))) singles rs) ∧
    ∀ e, Run.Ends (fun depth => fieldValue m (level m depth) type root source seen field)
        (.error e) ↔
      ∃ before single after cause, singles = before ++ single :: after ∧
        (∀ other ∈ before, ∃ r, Run.Ends (other.resolve m) (.ok (some r))) ∧
        Run.Ends (single.resolve m) (.error cause) ∧
        e = cause.withinIndex before.length ∧ e.rootCause = cause.rootCause := by
  -- a list field ends like its elements do one level below
  have hField : ∀ o, Run.Ends (fun depth => fieldValue m (level m depth) type root source seen
        field) o ↔
      Run.Ends (fun depth => elements m shape (singles.map Single.value) depth >>= fun rs =>
        pure (some (.list rs))) o := by
    intro o
    have hRuns := funext (fieldValue_list hRegistry hDecided hFound hValue hItems)
    rw [← fieldValue_grows.ends_succ_iff, hRuns]
  -- each element ends like the field on its own does
  have hSingle := fun (single : Single shape) hMem =>
    single.resolve_ends_iff hShape (hMappable single hMem)
  constructor
  · -- values: the results of the list are those of the fields, position by position
    intro value
    rw [hField, Run.ends_ok_bind_pure]
    refine exists_congr fun rs => and_congr eq_comm ?_
    rw [elements_end_ok_iff, List.forall₂_map_left_iff]
    constructor
    · intro h
      exact ((List.forall₂_and_left _ _).mpr ⟨hSingle, h⟩).imp fun single r ⟨hEnds, hElement⟩ =>
        (hEnds.1 r).mpr hElement
    · intro h
      exact ((List.forall₂_and_left _ _).mpr ⟨hSingle, h⟩).imp fun single r ⟨hEnds, hResolve⟩ =>
        (hEnds.1 r).mp hResolve
  · -- errors: the elements before the failing one, and this one, each stand for a field
    intro e
    rw [hField, Run.ends_error_bind_pure, elements_end_error_iff]
    constructor
    · rintro ⟨values, item, rest, hSplit, hBefore, cause, hItem, rfl⟩
      obtain ⟨before, others, rfl, rfl, hOthers⟩ := List.map_eq_append_iff.mp hSplit
      obtain ⟨single, after, rfl, rfl, rfl⟩ := List.map_eq_cons_iff.mp hOthers
      refine ⟨before, single, after, cause, rfl, fun other hOther => ?_, ?_, ?_, ?_⟩
      · -- the fields before it come up with a value
        obtain ⟨r, hElement⟩ := hBefore other.value (List.mem_map_of_mem hOther)
        exact ⟨r, ((hSingle other (List.mem_append_left _ hOther)).1 r).mpr hElement⟩
      · -- and its own error is that of the element
        exact ((hSingle single (List.mem_append_right _ List.mem_cons_self)).2 cause).mpr hItem
      · rw [List.length_map]
      · exact Error.rootCause_withinIndex _ cause
    · -- the other way round, the fields before it and its own error are those of elements
      rintro ⟨before, single, after, cause, rfl, hBefore, hFails, rfl, -⟩
      refine ⟨before.map Single.value, single.value, after.map Single.value, ?_, ?_, cause, ?_, ?_⟩
      · rw [List.map_append, List.map_cons]
      · -- the elements before it come up with a value
        rintro _ hValue
        obtain ⟨other, hOther, rfl⟩ := List.mem_map.mp hValue
        obtain ⟨r, hResolve⟩ := hBefore other hOther
        exact ⟨r, ((hSingle other (List.mem_append_left _ hOther)).1 r).mp hResolve⟩
      · exact ((hSingle single (List.mem_append_right _ List.mem_cons_self)).2 cause).mp hFails
      · rw [List.length_map]

/-- Endpoints are sections, and become values of a type of their own. -/
def endpointRegistry : ConverterRegistry :=
  (ConverterTable.empty.register ⟨.custom "endpoint", some (.section "endpoint"), fun r _ =>
    match r with
    | .section i => .ok (.custom ⟨"endpoint", if i.assigned.isEmpty then "free" else "bound"⟩)
    | other => .error (.typeMismatch "endpoint" other.kind.name)⟩).toRegistry

def boundEndpoint : Value := .map [("port", .long 80)]

/-- A list of endpoints that only the environment knows, beside a bound endpoint and a free one. -/
def endpointMapper : Mapper where
  family := fun _ => { SectionType.plain with fields := [.ofType "port" (.native .int)] }
  store := .ofRoot [("all", .expression ⟨"known", .variable "known"⟩), ("first", boundEndpoint),
    ("second", .map [])]
  evaluator := .interpreter
  converters := some endpointRegistry
  environment := [("known", .list [boundEndpoint, .map []])]

/-- An endpoint alone. -/
def singleEndpoint (name : String) : Single (.custom "endpoint") where
  store := endpointMapper.store
  type := .plain
  root := ""
  seen := .blank "box"
  field := { Field.ofType name (.custom "endpoint") with always := true }
  always := rfl
  decided := rfl

theorem endpointMapper_proper (name : String) : ProperNames endpointMapper name :=
  fun _ _ => List.forall_mem_singleton.mpr (by decide)

theorem singleEndpoint_mappable {name : String} {sub : Dict Value}
    (hName : Path.join "" name = name) (hBlank : Text.isBlank name = false)
    (hValue : (singleEndpoint name).value = .map sub) :
    (singleEndpoint name).Mappable endpointMapper := by
  have hPath : (singleEndpoint name).path = name := hName
  refine fun inner _ => ⟨endpointMapper_proper inner, .inr ?_, sub, hValue⟩
  rw [hPath, hBlank]

/-- The list of the endpoints is what they are one by one. -/
theorem endpoints_pointwise :
    Shape.custom "endpoint" ≠ .any ∧
      (∀ registry, endpointMapper.converters = some registry →
        registry.converterFor (.list (.custom "endpoint")) = none) ∧
      (∀ single ∈ [singleEndpoint "first", singleEndpoint "second"],
        single.Mappable endpointMapper) ∧
      Run.Ends (fun depth => fieldValue endpointMapper (level endpointMapper depth) .plain "" none
          (.blank "box") (.ofType "all" (.list (.custom "endpoint"))))
        (.ok (some (.list [.custom ⟨"endpoint", "bound"⟩, .custom ⟨"endpoint", "free"⟩]))) := by
  -- the hypotheses, one by one, for the endpoints
  have hRegistry : ∀ registry, endpointMapper.converters = some registry →
      registry.converterFor (.list (.custom "endpoint")) = none := by
    rintro _ ⟨⟩
    rfl
  have hMappable : ∀ single ∈ [singleEndpoint "first", singleEndpoint "second"],
      single.Mappable endpointMapper :=
    List.forall_mem_cons.mpr ⟨singleEndpoint_mappable rfl rfl rfl,
      List.forall_mem_singleton.mpr (singleEndpoint_mappable rfl rfl rfl)⟩
  have hFound : Resolution.resolve endpointMapper.store
      (fieldPath "" (.ofType "all" (.list (.custom "endpoint")))) none =
        .ok (some (.expression ⟨"known", .variable "known"⟩)) := rfl
  have hDecided : decidedShape .plain (.blank "box")
      (.ofType "all" (.list (.custom "endpoint"))) = .ok (.list (.custom "endpoint")) := rfl
  have hItems : (Value.list [boundEndpoint, .map []]).items? =
      some ([singleEndpoint "first", singleEndpoint "second"].map Single.value) := rfl
  have hShape : Shape.custom "endpoint" ≠ .any := nofun
  -- what is left is to run the two fields
  have hPointwise := resolve_list_pointwise hShape hRegistry hDecided hFound rfl hItems hMappable
  refine ⟨hShape, hRegistry, hMappable, (hPointwise.1 _).mpr ⟨_, rfl, ?_⟩⟩
  exact .cons ⟨2, rfl⟩ (.cons ⟨2, rfl⟩ .nil)

end Mapping

end TypedConfig
