import TypedConfig.Proofs.Settling
import Mathlib.Order.WellFounded

/-!
# Mapping ends

Discovery rejects a section with a field of its own shape, but sections may nest in
each other all the same, so a mapping can go down for ever. This happens in one of two
ways only. Where nothing is left in the tree, the only fields that lead on are those
that are always resolved. Where something is left, the fields that lead on either make
the path longer, and what is found there smaller, or they are read in place: they are
inlined, or their names add no keys to the path. If sections nest without end neither
through fields of the first kind alone nor through fields of the last kind alone, every
mapping ends.

The descent is an induction on the size of what is found at a path, and within one size
on the nesting of sections. Values that are mapped as sections of their own, inside
containers, are smaller than the container around them.

Main results:

* `settles_section` — in a tree whose parts settle, every section settles.
* `Mapper.mapSection_ends` — mappings end under these two conditions.
* `Mapping.not_returns_of_endless` — without either condition, sections are never made.
* `Mapping.linked_never_ends` — sections that pass discovery and are mapped without end.
-/

namespace TypedConfig

/-! ## What a path resolves to -/

/-- A walk that finds a value has followed keys that are not blank. -/
theorem Resolution.reach?_of_walk {path : String} {keys : List String} {source : Dict Value}
    {v : Value} (h : walk path keys source = .ok (some v)) :
    (∀ key ∈ keys, Text.isBlank key = false) ∧ (Value.map source).reach? keys = some v := by
  induction keys generalizing source with
  | nil =>
    cases h
    exact ⟨nofun, rfl⟩
  | cons key keys ih =>
    rw [Value.reach?_cons_map]
    unfold walk at h
    split at h
    · -- a blank key is an error
      cases h
    · next hKey =>
      rw [Bool.not_eq_true] at hKey
      cases keys with
      | nil =>
        have hFound : source.get? key = some v := Except.ok.inj h
        rw [hFound]
        exact ⟨List.forall_mem_singleton.mpr hKey, rfl⟩
      | cons other keys =>
        dsimp only at h
        -- a key with others behind it has to lead to a map
        split at h
        · next next hNext =>
          obtain ⟨hKeys, hFound⟩ := ih h
          rw [hNext]
          exact ⟨List.forall_mem_cons.mpr ⟨hKey, hKeys⟩, hFound⟩
        · cases h

/-- The tree that paths are resolved in: the source if one is given, or the store. -/
def Resolution.tree (store : Store) (source : Option (Dict Value)) : Value :=
  .map (source.getD store.root)

theorem Resolution.reach?_of_resolve {store : Store} {path : String}
    {source : Option (Dict Value)} {v : Value} (h : resolve store path source = .ok (some v)) :
    (tree store source).reach? (Path.segments path) = some v := by
  cases source with
  | none =>
    -- the store is read without a walk
    have hFound : store.get? path = some v := Except.ok.inj h
    rw [Store.get?_eq_reach?] at hFound
    exact hFound
  | some source =>
    -- a walk that found something has met no blank key, so its steps are the segments
    obtain ⟨hKeys, hFound⟩ := reach?_of_walk h
    rw [← Path.steps_eq_segments_of_not_blank hKeys]
    exact hFound

namespace Mapping

variable {m : Mapper}

/-! ## Where nested sections are read -/

/-- The field is read at the place of its section: it is inlined, or its name adds no
keys to the path. -/
def InPlace (field : Field) : Prop :=
  field.inlined = true ∨ Text.isBlank field.name = true ∨ Path.segments field.name = []

instance (field : Field) : Decidable (InPlace field) :=
  inferInstanceAs (Decidable (_ ∨ _ ∨ _))

section
variable {root : String} {field : Field}

theorem segments_fieldPath_of_inPlace (hRoot : Text.isBlank root = false) (h : InPlace field) :
    Path.segments (fieldPath root field) = Path.segments root := by
  unfold fieldPath
  split
  · -- an inlined field stands where its section does
    rfl
  · next hInlined =>
    cases hBlank : Text.isBlank field.name with
    | true => rw [Path.join_of_blank_right hRoot hBlank]
    | false =>
      -- a name that is not blank can still be without segments
      have hSegments : Path.segments field.name = [] := by
        rcases h with hSame | hSame | hSame
        · exact absurd hSame hInlined
        · cases hBlank.symm.trans hSame
        · exact hSame
      rw [Path.segments_join_of_not_blank hRoot hBlank, hSegments, List.append_nil]

theorem segments_fieldPath_of_not_inPlace (hRoot : Text.isBlank root = false)
    (h : ¬InPlace field) :
    ∃ below, below ≠ [] ∧ Path.segments (fieldPath root field) = Path.segments root ++ below := by
  simp only [InPlace, not_or, Bool.not_eq_true] at h
  obtain ⟨hInlined, hBlank, hSegments⟩ := h
  refine ⟨Path.segments field.name, hSegments, ?_⟩
  rw [fieldPath, hInlined, if_neg Bool.false_ne_true, Path.segments_join_of_not_blank hRoot hBlank]

theorem isBlank_fieldPath (hRoot : Text.isBlank root = false) :
    Text.isBlank (fieldPath root field) = false := by
  unfold fieldPath
  split
  · exact hRoot
  · exact Path.isBlank_join hRoot

/-- From a blank path, only fields that are read in place lead to a blank one. -/
theorem inPlace_of_isBlank_fieldPath (hRoot : Text.isBlank root = true)
    (h : Text.isBlank (fieldPath root field) = true) : InPlace field := by
  by_contra hAway
  simp only [InPlace, not_or, Bool.not_eq_true] at hAway
  obtain ⟨hInlined, hBlank, -⟩ := hAway
  rw [fieldPath, hInlined, if_neg Bool.false_ne_true, Path.join_of_blank_left hRoot hBlank,
    hBlank] at h
  cases h

end

/-- A field of the outer section with the property is mapped as the inner section. -/
def NestsBy (m : Mapper) (property : Field → Prop) (outer inner : String) : Prop :=
  ∃ field, Discovered m outer field ∧ property field ∧ field.shape = .section inner

/-- The relation goes on from name to name without an end. -/
def Endless (nests : String → String → Prop) : Prop :=
  ∃ chain : Nat → String, ∀ n, nests (chain n) (chain (n + 1))

/-- What is never gone through twice in a row has an end. -/
theorem not_endless_of_last {nests : String → String → Prop}
    (h : ∀ outer inner, nests outer inner → ∀ next, ¬nests inner next) : ¬Endless nests := by
  rintro ⟨chain, hChain⟩
  exact h _ _ (hChain 0) _ (hChain 1)

theorem wellFounded_of_not_endless {nests : String → String → Prop} (h : ¬Endless nests) :
    WellFounded fun inner outer => nests outer inner :=
  wellFounded_iff_isEmpty_descending_chain.mpr ⟨fun chain => h ⟨chain.1, chain.2⟩⟩

/-! ## Descending -/

/-- The value at the path is absent, null or smaller than the given size. -/
def SmallerAt (tree : Value) (size : Nat) (path : String) : Prop :=
  ∀ v, tree.reach? (Path.segments path) = some v → v.isNull = false → sizeOf v < size

namespace SmallerAt

variable {tree : Value} {size : Nat} {root path : String}

theorem of_segments_eq (h : SmallerAt tree size root)
    (hSegments : Path.segments path = Path.segments root) : SmallerAt tree size path := by
  intro v hReach hNull
  rw [hSegments] at hReach
  exact h v hReach hNull

/-- Further down, values are smaller, or absent. -/
theorem below (h : SmallerAt tree (size + 1) root) {keys : List String} (hKeys : keys ≠ [])
    (hSegments : Path.segments path = Path.segments root ++ keys) : SmallerAt tree size path := by
  intro v hReach _
  rw [hSegments, Value.reach?_append] at hReach
  obtain ⟨outer, hOuter, hInner⟩ := Option.bind_eq_some_iff.mp hReach
  have hSmaller : sizeOf v < sizeOf outer := Value.sizeOf_reach?_lt hKeys hInner
  -- below null there is nothing
  have hNull : outer.isNull = false := by
    cases outer with
    | null =>
      obtain ⟨key, keys, rfl⟩ := List.exists_cons_of_ne_nil hKeys
      cases hInner
    | _ => rfl
  have hBound := h outer hOuter hNull
  omega

theorem weaken (h : SmallerAt tree size root) : SmallerAt tree (size + 1) root :=
  fun v hReach hNull => Nat.lt_succ_of_lt (h v hReach hNull)

/-- Nothing is at the path but null. -/
theorem isNull_of_zero (h : SmallerAt tree 0 path) {v : Value}
    (hReach : tree.reach? (Path.segments path) = some v) : v.isNull = true := by
  cases hNull : v.isNull with
  | true => rfl
  | false => exact absurd (h v hReach hNull) (Nat.not_lt_zero _)

/-- What is at the place of a section is no smaller than what its field finds. -/
theorem fieldPath (h : SmallerAt tree size root) (hRoot : Text.isBlank root = false)
    (field : Field) : SmallerAt tree size (Mapping.fieldPath root field) := by
  by_cases hPlace : InPlace field
  · exact h.of_segments_eq (segments_fieldPath_of_inPlace hRoot hPlace)
  · obtain ⟨below, hBelow, hSegments⟩ := segments_fieldPath_of_not_inPlace hRoot hPlace
    exact h.weaken.below hBelow hSegments

end SmallerAt

section
variable (hConverters : m.converters = none)
variable (hDecide : ∀ name i field, (m.family name).decide i field = none)
variable {source : Option (Dict Value)}
variable (hTree : (Resolution.tree m.store source).Evaluated)
variable (hParts : ∀ keys found, (Resolution.tree m.store source).reach? keys = some found →
  ∀ part ∈ found.parts, ∀ shape, Settles m fun lower => lower.interpret part shape)
include hConverters hDecide hTree hParts

/-- In a tree whose parts settle, a section settles with the sections that its fields are
mapped as. -/
theorem settles_section_of_nested {name root : String}
    (h : ∀ field inner found, Discovered m name field → field.shape = .section inner →
      Resolution.resolve m.store (fieldPath root field) source = .ok found → Needed field found →
      Settles m fun lower => lower.mapSection inner (fieldPath root field) source) :
    Settles m fun lower => lower.mapSection name root source := by
  refine settles_mapSection hConverters (hDecide name) fun field hField => ?_
  refine settles_resolveField
    (fun inner found hShape hFound hNeeded => h field inner found hField hShape hFound hNeeded) ?_
  -- what is no section is mapped from the value that was found, or from null
  intro found hShape hFound
  cases found with
  | none =>
    exact settles_interpret_of_parts hConverters (.leaf rfl rfl)
      (fun part hPart => absurd hPart List.not_mem_nil) hShape
  | some v =>
    have hReach := Resolution.reach?_of_resolve hFound
    exact settles_interpret_of_parts hConverters (hTree.reach? hReach) (hParts _ v hReach) hShape

/-- Where nothing is, only fields that are always resolved lead on. -/
theorem settles_of_absent (hAlways : ¬Endless (NestsBy m (·.always = true))) {name root : String}
    (hRoot : Text.isBlank root = false)
    (hAbsent : SmallerAt (Resolution.tree m.store source) 0 root) :
    Settles m fun lower => lower.mapSection name root source := by
  -- the root gets longer on the way down, but stays one with nothing at it
  induction name using (wellFounded_of_not_endless hAlways).induction generalizing root with
  | _ name ih =>
    refine settles_section_of_nested hConverters hDecide hTree hParts
      fun field inner found hField hShape hFound hNeeded => ?_
    -- nothing is there, so nothing is below
    have hAbsentBelow := hAbsent.fieldPath hRoot field
    have hNull : (found.getD .null).isNull = true := by
      cases found with
      | none => rfl
      | some v => exact hAbsentBelow.isNull_of_zero (Resolution.reach?_of_resolve hFound)
    -- the field is needed only because it is always resolved
    have hFieldAlways : field.always = true := by
      rcases hNeeded with hSome | hSame
      · cases hNull.symm.trans hSome
      · exact hSame
    exact ih inner ⟨field, hField, hFieldAlways, hShape⟩ (isBlank_fieldPath hRoot) hAbsentBelow

/-- Below a path that is not blank, the value shrinks with every field that is not read in
place. -/
theorem settles_of_smallerAt (hAlways : ¬Endless (NestsBy m (·.always = true)))
    (hInPlace : ¬Endless (NestsBy m InPlace)) (size : Nat) {name root : String}
    (hRoot : Text.isBlank root = false)
    (hSmaller : SmallerAt (Resolution.tree m.store source) size root) :
    Settles m fun lower => lower.mapSection name root source := by
  induction size generalizing name root with
  | zero => exact settles_of_absent hConverters hDecide hTree hParts hAlways hRoot hSmaller
  | succ size ihSize =>
    -- fields that are read in place leave the value as it is, but cannot go on for ever
    induction name using (wellFounded_of_not_endless hInPlace).induction generalizing root with
    | _ name ih =>
      refine settles_section_of_nested hConverters hDecide hTree hParts
        fun field inner found hField hShape hFound hNeeded => ?_
      by_cases hPlace : InPlace field
      · exact ih inner ⟨field, hField, hPlace, hShape⟩ (isBlank_fieldPath hRoot)
          (hSmaller.fieldPath hRoot field)
      · -- otherwise a key leads down to a smaller value
        obtain ⟨below, hBelow, hSegments⟩ := segments_fieldPath_of_not_inPlace hRoot hPlace
        exact ihSize (isBlank_fieldPath hRoot) (hSmaller.below hBelow hSegments)

/-- In a tree whose parts settle, every section settles. -/
theorem settles_section (hAlways : ¬Endless (NestsBy m (·.always = true)))
    (hInPlace : ¬Endless (NestsBy m InPlace)) (name root : String) :
    Settles m fun lower => lower.mapSection name root source := by
  -- the size of the whole tree bounds whatever is in it
  have hNotBlank : ∀ {name root}, Text.isBlank root = false →
      Settles m fun lower => lower.mapSection name root source := by
    intro name root hRoot
    refine settles_of_smallerAt hConverters hDecide hTree hParts hAlways hInPlace
      (sizeOf (Resolution.tree m.store source) + 1) hRoot fun v hReach _ => ?_
    exact Nat.lt_succ_of_le (Value.sizeOf_reach?_le hReach)
  cases hRoot : Text.isBlank root with
  | false => exact hNotBlank hRoot
  | true =>
    -- a blank path gives way to the first name that is not, and joins nothing to it
    induction name using (wellFounded_of_not_endless hInPlace).induction generalizing root with
    | _ name ih =>
      refine settles_section_of_nested hConverters hDecide hTree hParts
        fun field inner found hField hShape hFound hNeeded => ?_
      cases hPath : Text.isBlank (fieldPath root field) with
      | false => exact hNotBlank hPath
      | true =>
        exact ih inner ⟨field, hField, inPlace_of_isBlank_fieldPath hRoot hPath, hShape⟩ _ hPath

end

/-- Every value without expressions settles, by its size. -/
theorem settles_interpret (hConverters : m.converters = none)
    (hDecide : ∀ name i field, (m.family name).decide i field = none)
    (hAlways : ¬Endless (NestsBy m (·.always = true))) (hInPlace : ¬Endless (NestsBy m InPlace))
    (size : Nat) {v : Value} (hEvaluated : v.Evaluated) (hSize : sizeOf v < size) (shape : Shape) :
    Settles m fun lower => lower.interpret v shape := by
  induction size generalizing v shape with
  | zero => exact absurd hSize (Nat.not_lt_zero _)
  | succ size ih =>
    -- whatever is found in the value, its parts are smaller than the value
    have hParts : ∀ keys found, v.reach? keys = some found → ∀ part ∈ found.parts, ∀ shape,
        Settles m fun lower => lower.interpret part shape := by
      intro keys found hReach part hPart shape
      have hPartSize := Value.sizeOf_lt_of_mem_parts hPart
      have hFoundSize := Value.sizeOf_reach?_le hReach
      exact ih ((hEvaluated.reach? hReach).of_mem_parts hPart) (by omega) shape
    -- a section inside a value is mapped from it as from a tree of its own
    by_cases hShape : ∃ name, shape = .section name
    · obtain ⟨name, rfl⟩ := hShape
      refine Settles.of_above (Settles.bind ?_ fun i => .pure (Resolved.section i))
      cases v with
      | map entries =>
        have hTree : (Resolution.tree m.store (some entries)).Evaluated := hEvaluated
        exact settles_section hConverters hDecide hTree hParts hAlways hInPlace name ""
      | _ =>
        -- what is no map is mapped as an empty one, and nothing is found in that
        have hTree : (Resolution.tree m.store (some [])).Evaluated :=
          .map fun entry hEntry => absurd hEntry List.not_mem_nil
        refine settles_section hConverters hDecide hTree ?_ hAlways hInPlace name ""
        rintro (_ | ⟨key, keys⟩) found hReach part hPart
        · cases hReach
          cases hPart
        · cases hReach
    · exact settles_interpret_of_parts hConverters hEvaluated (hParts [] v rfl)
        (not_exists.mp hShape)

end Mapping

/-- **Mapping ends.** Without expressions in the store, decisions or converters, and
whatever the fields are, every section is mapped to an instance or an error if sections
do not nest without end through fields that are all always resolved, nor through fields
that are all read in place. -/
theorem Mapper.mapSection_ends {m : Mapper} (hStore : (Value.map m.store.root).Evaluated)
    (hConverters : m.converters = none)
    (hDecide : ∀ name i field, (m.family name).decide i field = none)
    (hAlways : ¬Mapping.Endless (Mapping.NestsBy m (·.always = true)))
    (hInPlace : ¬Mapping.Endless (Mapping.NestsBy m Mapping.InPlace))
    (name : String) (root : Option String) :
    ∃ depth outcome, ∀ more, depth ≤ more → (m.mapSection more name root).run = some outcome := by
  have hSection : Mapping.Settles m fun lower => lower.mapSection name (root.getD "") none := by
    have hTree : (Resolution.tree m.store none).Evaluated := hStore
    -- the values of the store settle by their sizes
    refine Mapping.settles_section hConverters hDecide hTree ?_ hAlways hInPlace name _
    intro keys found hReach part hPart shape
    exact Mapping.settles_interpret hConverters hDecide hAlways hInPlace (sizeOf part + 1)
      ((hStore.reach? hReach).of_mem_parts hPart) (Nat.lt_succ_self _) shape
  exact hSection.mapError _

namespace Mapping

/-- Nodes with branches that lead to nodes again, and with further nodes in a list. -/
def nodeFamily : Family := fun name =>
  if name = "node" then
    { SectionType.plain with
      fields := [
        { Field.ofType "limits" (.section "limits") with inlined := true },
        { Field.ofType "state" (.section "state") with always := true },
        .ofType "branch" (.section "branch"),
        .ofType "children" (.list (.section "node"))] }
  else if name = "branch" then
    { SectionType.plain with fields := [.ofType "node" (.section "node")] }
  else { SectionType.plain with fields := [.ofType "size" (.native .long)] }

def nodeMapper : Mapper where
  family := nodeFamily
  store := .ofRoot [("branch", .map [("node", .map [])]), ("children", .list [.map []]),
    ("size", .long 1)]
  evaluator := .interpreter
  converters := none
  environment := []

theorem nodeMapper_evaluated : (Value.map nodeMapper.store.root).Evaluated := by
  have hEmpty : (Value.map []).Evaluated := .map fun entry hEntry => absurd hEntry List.not_mem_nil
  refine .map fun entry hEntry => ?_
  simp only [nodeMapper, Store.ofRoot, List.mem_cons, List.not_mem_nil, or_false] at hEntry
  rcases hEntry with rfl | rfl | rfl
  · refine .map fun entry hEntry => ?_
    rw [List.mem_singleton.mp hEntry]
    exact hEmpty
  · refine .list fun item hItem => ?_
    rw [List.mem_singleton.mp hItem]
    exact hEmpty
  · exact .leaf rfl rfl

theorem nodeMapper_decide (name : String) (i : Instance) (field : String) :
    (nodeMapper.family name).decide i field = none := by
  show (nodeFamily name).decide i field = none
  unfold nodeFamily
  split
  · rfl
  · split
    · rfl
    · rfl

theorem nodeFamily_declares {property : Field → Prop} {outer inner : String}
    (h : NestsBy nodeMapper property outer inner) :
    ∃ field ∈ (nodeFamily outer).fields, property field ∧ field.shape = .section inner := by
  obtain ⟨field, ⟨-, fields, hFields, hField⟩, hProperty, hShape⟩ := h
  obtain ⟨declared, hDeclared, rfl⟩ := SectionType.exists_declared hFields hField
  -- no node marks all of its fields
  have hAlways : (nodeMapper.family outer).always = false := by
    show (nodeFamily outer).always = false
    unfold nodeFamily
    split
    · rfl
    · split
      · rfl
      · rfl
  rw [hAlways, Bool.or_false] at hProperty
  exact ⟨declared, hDeclared, hProperty, hShape⟩

/-- Fields that only lead to a section without sections do not lead on for ever. -/
theorem nodeFamily_not_endless {property : Field → Prop} (last : String)
    (hLast : ∀ field ∈ (nodeFamily last).fields, field.shape = .scalar .long)
    (hFields : ∀ outer, ∀ field ∈ (nodeFamily outer).fields, property field →
      field.shape = .section last) : ¬Endless (NestsBy nodeMapper property) := by
  refine not_endless_of_last fun outer inner hFirst next hSecond => ?_
  -- after one such field comes a section of whole numbers, which leads nowhere
  obtain ⟨field, hField, hProperty, hShape⟩ := nodeFamily_declares hFirst
  obtain ⟨size, hSize, -, hSizeShape⟩ := nodeFamily_declares hSecond
  obtain rfl : last = inner :=
    Shape.section.inj ((hFields outer field hField hProperty).symm.trans hShape)
  cases (hLast size hSize).symm.trans hSizeShape

theorem nodeMapper_always : ¬Endless (NestsBy nodeMapper (·.always = true)) := by
  refine nodeFamily_not_endless "state" (by decide) fun outer => ?_
  unfold nodeFamily
  split
  · decide
  · split
    · decide
    · decide

theorem nodeMapper_inPlace : ¬Endless (NestsBy nodeMapper InPlace) := by
  refine nodeFamily_not_endless "limits" (by decide) fun outer => ?_
  unfold nodeFamily
  split
  · decide
  · split
    · decide
    · decide

/-- Nodes nest in each other, but every mapping of them ends. -/
theorem nodeMapper_ends :
    (Value.map nodeMapper.store.root).Evaluated ∧ nodeMapper.converters = none ∧
      (∀ name i field, (nodeMapper.family name).decide i field = none) ∧
      ¬Endless (NestsBy nodeMapper (·.always = true)) ∧ ¬Endless (NestsBy nodeMapper InPlace) ∧
      ∃ depth outcome, ∀ more, depth ≤ more →
        (nodeMapper.mapSection more "node" none).run = some outcome :=
  ⟨nodeMapper_evaluated, rfl, nodeMapper_decide, nodeMapper_always, nodeMapper_inPlace,
    Mapper.mapSection_ends nodeMapper_evaluated rfl nodeMapper_decide nodeMapper_always
      nodeMapper_inPlace "node" none⟩

/-! ## Sections that nest without end -/

section
variable {m : Mapper}

theorem exists_returns_of_mapFields {lower : Level} {type : SectionType} {root : String}
    {source : Option (Dict Value)} {fields : List Field} {i j : Instance}
    (h : (mapFields m lower type root source i fields).Returns j) {field : Field}
    (hField : field ∈ fields) :
    ∃ before after, (mapLocatedField m lower type root source before field).Returns after := by
  induction fields generalizing i with
  | nil => cases hField
  | cons first rest ih =>
    obtain ⟨next, hFirst, hRest⟩ := Run.returns_bind.mp h
    rcases List.mem_cons.mp hField with rfl | hField
    · exact ⟨i, next, hFirst⟩
    · exact ih hRest hField

/-- A section that was made has made the sections of all its fields that were needed. -/
theorem exists_returns_nested (hConverters : m.converters = none) {lower : Level}
    {name root inner : String} {source : Option (Dict Value)} {i : Instance}
    (h : (Mapping.mapSection m lower name root source).Returns i) {field : Field}
    (hField : Discovered m name field) (hShape : field.shape = .section inner)
    {found : Option Value}
    (hFound : Resolution.resolve m.store (fieldPath root field) source = .ok found)
    (hNeeded : Needed field found) :
    ∃ j, (lower.mapSection inner (fieldPath root field) source).Returns j := by
  obtain ⟨hConstructible, fields, hFields, hMem⟩ := hField
  -- a field with a shape is among the first to be mapped
  have hOrder : field ∈ SectionType.mappingOrder fields := by
    refine List.mem_append_left _ (List.mem_filter.mpr ⟨hMem, ?_⟩)
    rw [hShape]
    rfl
  unfold Mapping.mapSection at h
  dsimp only at h
  rw [hConstructible, if_neg (by decide), hFields, Run.ofOutcome_ok_bind] at h
  -- a section is made after all of its fields were mapped
  obtain ⟨j, hMapped, -⟩ := Run.returns_bind.mp h
  obtain ⟨before, after, hLocated⟩ := exists_returns_of_mapFields hMapped hOrder
  obtain ⟨value, hValue, -⟩ := Run.returns_bind.mp (Run.returns_mapError.mp hLocated)
  -- the shape is given, so the field was resolved under it
  have hDecided : decidedShape (m.family name) before field = .ok (.section inner) := by
    rw [decidedShape, hShape]
    rfl
  unfold fieldValue at hValue
  rw [hDecided, Run.ofOutcome_ok_bind, hConverters] at hValue
  obtain ⟨resolved, hResolved, -⟩ := Run.returns_bind.mp hValue
  have hSection : (resolveField m lower root source field (.section inner)).Returns resolved :=
    hResolved
  -- it was needed, so the section was mapped for it
  rw [resolveField_section_of_needed hFound hNeeded] at hSection
  obtain ⟨j, hInner, -⟩ := Run.returns_bind.mp hSection
  exact ⟨j, hInner⟩

/-- Along a chain of sections through fields that are all needed, nothing is ever made. -/
theorem not_returns_of_chain (hConverters : m.converters = none) {property : Field → Prop}
    {P : String → Prop}
    (hNeeded : ∀ root field, P root → property field →
      P (fieldPath root field) ∧ Needed field (m.store.get? (fieldPath root field)))
    {chain : Nat → String} (hChain : ∀ n, NestsBy m property (chain n) (chain (n + 1)))
    (depth n : Nat) {root : String} (hRoot : P root) (i : Instance) :
    ¬((level m depth).mapSection (chain n) root none).Returns i := by
  induction depth generalizing n root i with
  | zero => exact Run.not_returns_tooDeep
  | succ depth ih =>
    -- whoever makes a section of the chain has made the next one, a level below
    intro hReturns
    obtain ⟨field, hField, hProperty, hShape⟩ := hChain n
    obtain ⟨hBelow, hFieldNeeded⟩ := hNeeded root field hRoot hProperty
    obtain ⟨j, hInner⟩ := exists_returns_nested hConverters hReturns hField hShape rfl hFieldNeeded
    exact ih (n + 1) hBelow j hInner

/-- A field that is read in place adds no keys to a path without any. -/
theorem segments_fieldPath_of_nil {root : String} {field : Field}
    (hRoot : Path.segments root = []) (h : InPlace field) :
    Path.segments (fieldPath root field) = [] := by
  cases hBlank : Text.isBlank root with
  | false => rw [segments_fieldPath_of_inPlace hBlank h, hRoot]
  | true =>
    -- a blank root gives way to the name, which brings no segments either
    unfold fieldPath
    split
    · exact hRoot
    · next hInlined =>
      cases hName : Text.isBlank field.name with
      | true =>
        rw [Path.join_of_blank hBlank hName]
        rfl
      | false =>
        rw [Path.join_of_blank_left hBlank hName]
        rcases h with hSame | hSame | hSame
        · exact absurd hSame hInlined
        · cases hName.symm.trans hSame
        · exact hSame

/-- **Neither condition can be left out.** Sections that nest without end through fields that
are always resolved are never made, at any root, and those that nest without end through
fields that are read in place are never made of the whole tree. -/
theorem not_returns_of_endless (hConverters : m.converters = none) {chain : Nat → String} :
    ((∀ n, NestsBy m (·.always = true) (chain n) (chain (n + 1))) →
      ∀ depth root i, ¬(m.mapSection depth (chain 0) root).Returns i) ∧
    ((∀ n, NestsBy m InPlace (chain n) (chain (n + 1))) →
      ∀ depth i, ¬(m.mapSection depth (chain 0) none).Returns i) := by
  constructor
  · -- always resolved, a field is needed at every root
    intro hChain depth root i hReturns
    refine not_returns_of_chain hConverters (P := fun _ => True) ?_ hChain depth 0 trivial i
      (Run.returns_mapError.mp hReturns)
    exact fun root field _ hAlways => ⟨trivial, .inr hAlways⟩
  · -- read in place, it is needed since the whole tree stands at its path
    intro hChain depth i hReturns
    refine not_returns_of_chain hConverters (P := fun root => Path.segments root = []) ?_ hChain
      depth 0 rfl i (Run.returns_mapError.mp hReturns)
    intro root field hRoot hPlace
    have hPath := segments_fieldPath_of_nil hRoot hPlace
    refine ⟨hPath, .inl ?_⟩
    rw [Store.get?, hPath]
    rfl

end

/-- The one of two sections that a section is not. -/
def otherName (name : String) : String :=
  if name = "outer" then "inner" else "outer"

theorem otherName_ne (name : String) : otherName name ≠ name := by
  unfold otherName
  split
  · next hOuter =>
    rw [hOuter]
    decide
  · next hOuter => exact Ne.symm hOuter

/-- The field of a section that is mapped as the other one. -/
def link (always inlined : Bool) (field name : String) : Field :=
  { Field.ofType field (.section (otherName name)) with always, inlined }

/-- Two sections that are linked to each other, and an empty store. -/
def linkedMapper (always inlined : Bool) (field : String) : Mapper where
  family := fun name => { SectionType.plain with fields := [link always inlined field name] }
  store := .empty
  evaluator := .interpreter
  converters := none
  environment := []

section
variable {always inlined : Bool} {field : String}

theorem linked_discover (name : String) :
    ((linkedMapper always inlined field).family name).discover name =
      .ok [link always inlined field name] := by
  -- the link leads to the other section, so discovery has nothing against it
  have hOther : (link always inlined field name).shape ≠ .section name :=
    fun hSame => otherName_ne name (Shape.section.inj hSame)
  have hCheck : SectionType.checkField name (link always inlined field name) = .ok () := by
    rw [SectionType.checkField, if_neg hOther]
    rfl
  show collect _ [link always inlined field name] = _
  rw [collect, hCheck]
  simp [collect, link, linkedMapper, SectionType.plain]

/-- A section has no outcome where the one it is linked to has none. -/
theorem linked_mapSection {lower : Level} {name root : String}
    (hNeeded : Needed (link always inlined field name)
      (Store.empty.get? (fieldPath root (link always inlined field name))))
    (h : (lower.mapSection (otherName name)
      (fieldPath root (link always inlined field name)) none).run = none) :
    (Mapping.mapSection (linkedMapper always inlined field) lower name root none).run = none := by
  have hFound : Resolution.resolve (linkedMapper always inlined field).store
      (fieldPath root (link always inlined field name)) none =
      .ok (Store.empty.get? (fieldPath root (link always inlined field name))) := rfl
  -- the link is needed, so it has no outcome without the other section
  have hResolve : (resolveField (linkedMapper always inlined field) lower root none
      (link always inlined field name) (.section (otherName name))).run = none := by
    rw [resolveField_section_of_needed hFound hNeeded]
    exact Run.run_bind_of_none _ h
  have hShape : decidedShape ((linkedMapper always inlined field).family name) (.blank name)
      (link always inlined field name) = .ok (.section (otherName name)) := rfl
  have hValue : (fieldValue (linkedMapper always inlined field) lower
      ((linkedMapper always inlined field).family name) root none (.blank name)
      (link always inlined field name)).run = none := by
    unfold fieldValue
    rw [hShape, Run.ofOutcome_ok_bind]
    exact Run.run_bind_of_none _ hResolve
  unfold Mapping.mapSection
  simp only [linked_discover, Run.ofOutcome_ok_bind]
  -- neither the hooks nor the end of the section is reached
  refine Run.run_bind_of_none _ (Run.run_bind_of_none _ (Run.run_mapError_of_none _ ?_))
  exact Run.run_bind_of_none _ hValue

/-- No level is enough where every link is needed, all the way down. -/
theorem linked_level {P : String → Prop} (hDown : ∀ name root, P root →
      P (fieldPath root (link always inlined field name)) ∧
        Needed (link always inlined field name)
          (Store.empty.get? (fieldPath root (link always inlined field name))))
    (depth : Nat) {name root : String} (hRoot : P root) :
    ((level (linkedMapper always inlined field) depth).mapSection name root none).run = none := by
  induction depth generalizing name root with
  | zero => rfl
  | succ depth ih =>
    obtain ⟨hBelow, hNeeded⟩ := hDown name root hRoot
    exact linked_mapSection hNeeded (ih hBelow)

end

/-- Two sections that pass discovery are mapped without end from an empty store, in each of
three ways: by links that are always resolved, by inlined links, and by links with an
empty name. -/
theorem linked_never_ends :
    (∀ always inlined field name,
      ((linkedMapper always inlined field).family name).discover name =
        .ok [link always inlined field name] ∧
      ∀ i other, ((linkedMapper always inlined field).family name).decide i other = none) ∧
    (Value.map Store.empty.root).Evaluated ∧
    ∀ depth, ((linkedMapper true false "link").mapSection depth "outer" none).run = none ∧
      ((linkedMapper false true "link").mapSection depth "outer" none).run = none ∧
      ((linkedMapper false false "").mapSection depth "outer" none).run = none := by
  have hEmpty : (Value.map Store.empty.root).Evaluated :=
    .map fun entry hEntry => absurd hEntry List.not_mem_nil
  refine ⟨fun _ _ _ name => ⟨linked_discover name, fun _ _ => rfl⟩, hEmpty,
    fun depth => ⟨?_, ?_, ?_⟩⟩
  · -- links that are always resolved are needed at any path
    refine Run.run_mapError_of_none _ (linked_level (P := fun _ => True) ?_ depth trivial)
    exact fun name root _ => ⟨trivial, .inr rfl⟩
  · -- inlined links leave the root empty, where the whole tree stands
    refine Run.run_mapError_of_none _ (linked_level (P := (· = "")) ?_ depth rfl)
    rintro name root rfl
    exact ⟨rfl, .inl rfl⟩
  · -- and so do links without a name
    refine Run.run_mapError_of_none _ (linked_level (P := (· = "")) ?_ depth rfl)
    rintro name root rfl
    exact ⟨rfl, .inl rfl⟩

end Mapping

end TypedConfig
