import TypedConfig.Proofs.Pointwise
import TypedConfig.Proofs.Turns

/-!
# Two ways to embed a base

A section can embed another one in two ways. It inherits the fields of the base, which then
stand among its own and are assigned to an embedded instance; or it has a field of the base's
type that is inlined, so that the base is mapped as a section of its own, at the same path.
Where something is found at that path, both ways populate the base alike. The entries of the
two tables differ only in the chains of bases they are assigned through, and an error is
annotated with the names of the same fields, since the inlined field adds nothing to it.

Inlining takes one level of the engine more than inheriting. So the two are compared on as
many levels as they need. At each level the runs are matched step by step, in both
directions, by one lemma about entries that are assigned to different places:
`mapFields_matched`. It takes the fields in front of the base from the one host to the
other, and the inherited fields to those that the base maps for itself.

Main results:

* `Instance.base_assign_self` / `Instance.base_assign_of_ne` — what an assignment does to a
  base.
* `mapFields_matched` — runs over tables that assign the same to different places.
* `populating_inlined_eq` — an inlined field is the run of its base.
* `populating_alike` — both hosts populate their bases with the same instance, or fail with
  the same error.
* `populated_alike` — so do their mappings as a whole.
-/

namespace TypedConfig

/-! ## Embedded instances -/

namespace Instance

/-- The instance of a base; a blank one as long as nothing was assigned to it. -/
def base (i : Instance) (name : String) : Instance :=
  (Dict.get? name i.bases).getD (blank name)

theorem base_assign_self (i : Instance) (name : String) (chain : List String) (field : String)
    (value : Typed) :
    (i.assign (name :: chain) field value).base name = (i.base name).assign chain field value := by
  rw [assign, base, Dict.get?_insert_self]
  rfl

theorem base_assign_of_ne {chain : List String} {name : String} (h : chain.head? ≠ some name)
    (i : Instance) (field : String) (value : Typed) :
    (i.assign chain field value).base name = i.base name := by
  cases chain with
  | nil => rfl
  | cons first chain =>
    -- only the base at the head of the chain is written to
    have hOther : name ≠ first := fun hSame => h (congrArg some hSame.symm)
    rw [assign, base, Dict.get?_insert_of_ne hOther]
    rfl

/-- Assignments keep what two instances have in common. -/
theorem base_assign_congr {i j : Instance} {name : String} (h : j.base name = i.base name)
    (chain : List String) (field : String) (value : Typed) :
    (j.assign chain field value).base name = (i.assign chain field value).base name := by
  cases chain with
  | nil => exact h
  | cons first chain =>
    -- the base in question is written to in both, or in neither
    by_cases hSame : first = name
    · rw [hSame, base_assign_self, base_assign_self, h]
    · have hOther : (first :: chain).head? ≠ some name := fun hHead => hSame (Option.some.inj hHead)
      rw [base_assign_of_ne hOther, base_assign_of_ne hOther, h]

end Instance

/-! ## Entries in other places -/

/-- The entry, assigned through another chain of bases. -/
def Field.through (chain : List String) (field : Field) : Field :=
  { field with chain }

namespace Mapping

variable {m : Mapper} {lower : Level} {type type' : SectionType} {root : String}
  {source : Option (Dict Value)} {R : Instance → Instance → Prop}

theorem mapFields_append (i : Instance) (fields others : List Field) :
    mapFields m lower type root source i (fields ++ others) =
      mapFields m lower type root source i fields >>= fun j =>
        mapFields m lower type root source j others := by
  induction fields generalizing i with
  | nil => exact (pure_bind ..).symm
  | cons field fields ih =>
    -- the fields of the first part come first, and what they make goes on into the second
    rw [List.cons_append, mapFields, mapFields, bind_assoc]
    exact congrArg _ (funext fun j => ih j)

theorem mapFields_grows (i : Instance) (fields : List Field) :
    Run.Grows fun depth => mapFields m (level m depth) type root source i fields := by
  intro depth depth' hDepth
  have hStore := agreeOn_self m.store
  exact mapFields_extendedBy (level_extendedOn hStore hDepth) hStore (fun _ => trivial) type fields i

section
variable (hDefault : ∀ i shape field, type.defaultFor i shape field = none)
  (hDefault' : ∀ i shape field, type'.defaultFor i shape field = none)
include hDefault hDefault'

/-- Without hooks that tell the sections apart, an entry with a shape has the same value in
both. -/
theorem fieldValue_through {field : Field} (hShape : field.shape ≠ .any)
    (chain chain' : List String) (i j : Instance) :
    fieldValue m lower type root source i (field.through chain) =
      fieldValue m lower type' root source j (field.through chain') := by
  -- a shaped field is never decided, whatever the instance
  have hDecided : ∀ (t : SectionType) k c, decidedShape t k (field.through c) = .ok field.shape :=
    fun t k c => if_neg hShape
  unfold fieldValue
  rw [hDecided, hDecided, Run.ofOutcome_ok_bind, Run.ofOutcome_ok_bind]
  dsimp only
  -- past the decision the two run alike, up to the default, and neither section has one
  refine congrArg _ (funext fun r => ?_)
  cases r with
  | none => exact congrArg Pure.pure ((hDefault ..).trans (hDefault' ..).symm)
  | some r => rfl

/-- A step over an entry that is assigned to two places. -/
theorem mapLocatedField_matched {field : Field} (hShape : field.shape ≠ .any)
    {chain chain' : List String}
    (hAssign : ∀ i j value, R i j →
      R (i.assign chain field.name value) (j.assign chain' field.name value))
    {i j : Instance} (hRelated : R i j) :
    Run.MatchedBy R (mapLocatedField m lower type root source i (field.through chain))
      (mapLocatedField m lower type' root source j (field.through chain')) := by
  -- an error is located at the same name in both
  refine .mapError ?_ _
  unfold mapField
  -- the value is the same, and only the place it goes to differs
  rw [fieldValue_through hDefault hDefault' hShape chain chain' i j]
  refine .bind_same _ fun r => ?_
  cases r with
  | none => exact .pure hRelated
  | some r => exact .bind_same _ fun value => .pure (hAssign i j value hRelated)

/-- **Runs over two tables that assign the same to different places** keep related what the
single assignments keep related. -/
theorem mapFields_matched {fields : List Field} (hShapes : ∀ field ∈ fields, field.shape ≠ .any)
    {chain chain' : Field → List String}
    (hAssign : ∀ field ∈ fields, ∀ i j value, R i j →
      R (i.assign (chain field) field.name value) (j.assign (chain' field) field.name value))
    {i j : Instance} (hRelated : R i j) :
    Run.MatchedBy R
      (mapFields m lower type root source i (fields.map fun field => field.through (chain field)))
      (mapFields m lower type' root source j
        (fields.map fun field => field.through (chain' field))) := by
  induction fields generalizing i j with
  | nil => exact .pure hRelated
  | cons field fields ih =>
    obtain ⟨hShape, hShapes⟩ := List.forall_mem_cons.mp hShapes
    obtain ⟨hFirst, hRest⟩ := List.forall_mem_cons.mp hAssign
    -- what the first entry keeps related is what the others start from
    exact (mapLocatedField_matched hDefault hDefault' hShape hFirst hRelated).bind
      fun _ _ h => ih hShapes hRest h

end

end Mapping

/-! ## Tables with a base -/

/-- A field of the type of a base that is read at the path of its own section. -/
def Field.inlinedAs (name : String) (always : Bool) (base : String) : Field :=
  { Field.ofType name (.section base) with always, inlined := true }

theorem Field.marked_false (field : Field) : field.marked false = field := by
  rw [Field.marked, Bool.or_false]

namespace SectionType

/-- The fields that are mapped in declared order, before all whose shape has to be decided. -/
def shapedOf (fields : List Field) : List Field :=
  (fields.filter fun field => !field.ignored).filter fun field => field.shape ≠ .any

theorem shapedOf_append (fields others : List Field) :
    shapedOf (fields ++ others) = shapedOf fields ++ shapedOf others := by
  rw [shapedOf, List.filter_append, List.filter_append]
  rfl

theorem mem_shapedOf {fields : List Field} {field : Field} (h : field ∈ shapedOf fields) :
    field ∈ fields ∧ field.ignored = false ∧ field.shape ≠ .any := by
  obtain ⟨hConsidered, hShape⟩ := List.mem_filter.mp h
  obtain ⟨hMem, hIgnored⟩ := List.mem_filter.mp hConsidered
  exact ⟨hMem, by simpa using hIgnored, of_decide_eq_true hShape⟩

/-- Being embedded changes neither the name nor the shape of a field, nor whether it takes part. -/
theorem shapedOf_inherited (name : String) (base : SectionType) :
    shapedOf (inherited name base) = base.shaped.map (Field.lift name base.always) := by
  rw [shapedOf, inherited, List.filter_map, List.filter_map]
  rfl

end SectionType

/-- The section of a name is a base that neither hooks nor converters have a part in. -/
structure Mapper.PlainBase (m : Mapper) (base : String) : Prop where
  constructible : (m.family base).constructible = true
  discovered : ∃ fields, (m.family base).discover base = .ok fields
  shaped : ∀ entry ∈ (m.family base).considered, entry.shape ≠ .any
  defaultFor : ∀ i shape field, (m.family base).defaultFor i shape field = none
  afterParsing : ∀ i specs, (m.family base).afterParsing i specs = .ok i
  unconverted : ∀ registry, m.converters = some registry →
    registry.converterFor (.section base) = none

/-- The section of a name hosts a base: the fields of the base, or a field for it, stand between
fields of its own, which pass discovery and have nothing to do with the base. -/
structure Mapper.Hosts (m : Mapper) (host base : String) (front middle back : List Field) :
    Prop where
  constructible : (m.family host).constructible = true
  notAlways : (m.family host).always = false
  defaultFor : ∀ i shape field, (m.family host).defaultFor i shape field = none
  table : (m.family host).fields = front ++ middle ++ back
  passes : ∀ field ∈ front ++ back, field.ignored = false →
    SectionType.checkField host field = .ok ()
  apart : ∀ field ∈ front ++ back, field.chain.head? ≠ some base

namespace Mapping

variable {m : Mapper} {lower : Level} {host base root : String} {source : Option (Dict Value)}
  {front middle back : List Field}

/-- A plain base is what its fields make of a blank instance. -/
theorem mapSection_of_plainBase (h : m.PlainBase base) :
    Mapping.mapSection m lower base root source =
      mapFields m lower (m.family base) root source (.blank base)
          ((m.family base).shaped.map (Field.marked (m.family base).always)) >>= fun k =>
        pure (k.complete base (m.family base).specs) := by
  obtain ⟨fields, hFields⟩ := h.discovered
  -- a base without undecided fields maps all of them in one go
  have hUndecided : (m.family base).undecided = [] :=
    List.filter_eq_nil_iff.mpr fun entry hEntry hAny =>
      h.shaped entry hEntry (of_decide_eq_true hAny)
  unfold Mapping.mapSection
  dsimp only
  rw [h.constructible, if_neg nofun, hFields, Run.ofOutcome_ok_bind,
    SectionType.mappingOrder_of_discover hFields, SectionType.specs_of_discover hFields, hUndecided,
    List.append_nil]
  -- the last hook of a plain base changes nothing
  refine congrArg _ (funext fun k => ?_)
  rw [h.afterParsing]
  rfl

/-- The fields that a host maps after those of its base. -/
def remaining (m : Mapper) (host : String) (back : List Field) : List Field :=
  SectionType.shapedOf back ++ (m.family host).undecided

/-- The fields of a host in front of those of its base, over more and more levels. -/
def leading (m : Mapper) (host root : String) (source : Option (Dict Value)) (front : List Field)
    (depth : Nat) : Run Instance :=
  mapFields m (level m depth) (m.family host) root source (.blank host)
    (SectionType.shapedOf front)

/-- The fields by which a host populates its base, over more and more levels. -/
def populating (m : Mapper) (host root : String) (source : Option (Dict Value))
    (middle : List Field) (i : Instance) (depth : Nat) : Run Instance :=
  mapFields m (level m depth) (m.family host) root source i (SectionType.shapedOf middle)

/-- All fields of a host, over more and more levels. -/
def hostFields (m : Mapper) (host root : String) (source : Option (Dict Value))
    (front middle back : List Field) (depth : Nat) : Run Instance :=
  leading m host root source front depth >>= fun i =>
    populating m host root source middle i depth >>= fun j =>
      mapFields m (level m depth) (m.family host) root source j (remaining m host back)

/-- What a host does with the instance once its fields are mapped. -/
def lastHook (m : Mapper) (host : String) (k : Instance) : Run Instance :=
  Run.ofOutcome ((m.family host).afterParsing k (m.family host).specs) >>= fun parsed =>
    pure (parsed.complete host (m.family host).specs)

/-- A host maps the fields in front of the base, then the base, then what is left. -/
theorem mapSection_of_hosts (h : m.Hosts host base front middle back)
    (hMiddle : ∀ field ∈ middle, field.ignored = false →
      SectionType.checkField host field = .ok ()) (depth : Nat) :
    (level m (depth + 1)).mapSection host root source =
      hostFields m host root source front middle back depth >>= lastHook m host := by
  -- the host passes discovery: front and back by assumption, the middle one by the other
  obtain ⟨fields, hFields⟩ : ∃ fields, (m.family host).discover host = .ok fields := by
    refine SectionType.exists_discover_iff.mpr fun entry hEntry => ?_
    obtain ⟨hMem, hIgnored⟩ := List.mem_filter.mp hEntry
    rw [Bool.not_eq_true'] at hIgnored
    rw [h.table, List.append_assoc] at hMem
    rcases List.mem_append.mp hMem with hFront | hMem
    · exact h.passes entry (List.mem_append_left _ hFront) hIgnored
    · rcases List.mem_append.mp hMem with hMem | hBack
      · exact hMiddle entry hMem hIgnored
      · exact h.passes entry (List.mem_append_right _ hBack) hIgnored
  -- no field is marked by the host itself, so the shaped ones stand in table order
  have hOrder : SectionType.mappingOrder fields =
      SectionType.shapedOf front ++ (SectionType.shapedOf middle ++ remaining m host back) := by
    have hShaped : (m.family host).shaped = SectionType.shapedOf (m.family host).fields := rfl
    have hMarked : ∀ entries : List Field, entries.map (Field.marked false) = entries :=
      fun entries => (List.map_congr_left fun field _ => field.marked_false).trans (List.map_id _)
    rw [SectionType.mappingOrder_of_discover hFields, h.notAlways, hMarked, hShaped, h.table,
      SectionType.shapedOf_append, SectionType.shapedOf_append, remaining, List.append_assoc,
      List.append_assoc]
  show Mapping.mapSection m (level m depth) host root source = _
  unfold Mapping.mapSection
  dsimp only
  rw [h.constructible, if_neg nofun, hFields, Run.ofOutcome_ok_bind, hOrder,
    SectionType.specs_of_discover hFields, mapFields_append, hostFields, bind_assoc, bind_assoc]
  -- what comes in front makes an instance, and the middle goes on from it
  refine congrArg _ (funext fun i => ?_)
  rw [mapFields_append]
  rfl

/-! ## Populating a base -/

/-- Two hosts that are about to populate their bases. What was assigned so far is the same, and
none of it was assigned to the base. -/
structure Reached (base : String) (i i' : Instance) : Prop where
  assigned : i'.assigned = i.assigned
  bases : ∀ other, other ≠ base → i'.base other = i.base other
  untouched : i.base base = .blank base

theorem Reached.assign {i i' : Instance} (h : Reached base i i') {chain : List String}
    (hApart : chain.head? ≠ some base) (field : String) (value : Typed) :
    Reached base (i.assign chain field value) (i'.assign chain field value) where
  assigned := by
    -- a field of the host itself is appended to what it has; a field of a base leaves that alone
    cases chain with
    | nil => exact congrArg (· ++ [(field, value)]) h.assigned
    | cons first chain => exact h.assigned
  bases := fun other hOther => Instance.base_assign_congr (h.bases other hOther) chain field value
  untouched := (Instance.base_assign_of_ne hApart i field value).trans h.untouched

/-- Two hosts that have populated their bases. One has the fields of the base in an embedded
instance, and the other one was assigned the same instance, completed with these fields. -/
structure SameBase (base name : String) (specs : List FieldSpec) (j j' : Instance) : Prop where
  assigned : j'.assigned = j.assigned ++ [(name, .section ((j.base base).complete base specs))]
  bases : ∀ other, other ≠ base → j'.base other = j.base other

/-- A host that started out from `i` has populated its base as far as `k`. -/
structure PopulatedTo (base : String) (i j k : Instance) : Prop where
  populated : j.base base = k
  assigned : j.assigned = i.assigned
  bases : ∀ other, other ≠ base → j.base other = i.base other

theorem PopulatedTo.assign {i j k : Instance} (h : PopulatedTo base i j k) (chain : List String)
    (field : String) (value : Typed) :
    PopulatedTo base i (j.assign (base :: chain) field value) (k.assign chain field value) where
  -- the base inside the host and the base on its own take the same assignment
  populated := by rw [Instance.base_assign_self, h.populated]
  assigned := h.assigned
  bases := fun other hOther => by
    -- another base is not at the head of the chain
    have hApart : (base :: chain).head? ≠ some other := fun hHead =>
      hOther (Option.some.inj hHead).symm
    rw [Instance.base_assign_of_ne hApart, h.bases other hOther]

theorem PopulatedTo.sameBase {i i' j k : Instance} (h : PopulatedTo base i j k)
    (hReached : Reached base i i') (name : String) (specs : List FieldSpec) :
    SameBase base name specs j (i'.assign [] name (.section (k.complete base specs))) where
  assigned := by
    show i'.assigned ++ _ = _
    rw [hReached.assigned, h.assigned, h.populated]
  bases := fun other hOther => (hReached.bases other hOther).trans (h.bases other hOther).symm

end Mapping

/-- Two hosts differ in nothing but the way in which they embed a plain base: the one inherits its
fields, the other one has an inlined field of its type. -/
structure Mapper.Embeds (m : Mapper) (inheriting inlining base : String)
    (front back : List Field) (name : String) (always : Bool) : Prop where
  plain : m.PlainBase base
  inherits : m.Hosts inheriting base front (SectionType.inherited base (m.family base)) back
  inlines : m.Hosts inlining base front [Field.inlinedAs name always base] back
  other : ∀ entry ∈ (m.family base).considered, entry.shape ≠ .section inheriting

namespace Mapping

variable {m : Mapper} {inheriting inlining base root name : String} {front back : List Field}
  {always : Bool} {source : Option (Dict Value)}

theorem map_through_chain (fields : List Field) :
    (fields.map fun field => field.through field.chain) = fields :=
  List.map_id fields

/-- The fields in front of the base are mapped alike. -/
theorem leading_alike (h : m.Embeds inheriting inlining base front back name always) :
    Run.EndAlike (Reached base) (leading m inheriting root source front)
      (leading m inlining root source front) := by
  -- the fields in front have shapes and go elsewhere, so both hosts treat them the same
  have hShapes : ∀ field ∈ SectionType.shapedOf front, field.shape ≠ .any :=
    fun field hField => (SectionType.mem_shapedOf hField).2.2
  have hApart : ∀ field ∈ SectionType.shapedOf front, field.chain.head? ≠ some base :=
    fun field hField =>
      h.inherits.apart field (List.mem_append_left _ (SectionType.mem_shapedOf hField).1)
  have hBlank : Reached base (.blank inheriting) (.blank inlining) := ⟨rfl, fun _ _ => rfl, rfl⟩
  -- one matching for each direction
  refine .of_matchedBy (fun depth => ?_) (fun depth => ?_)
  · unfold leading
    rw [← map_through_chain (SectionType.shapedOf front)]
    exact mapFields_matched h.inherits.defaultFor h.inlines.defaultFor hShapes
      (fun field hField i i' value hReached => hReached.assign (hApart field hField) _ value) hBlank
  · unfold leading
    rw [← map_through_chain (SectionType.shapedOf front)]
    exact mapFields_matched h.inlines.defaultFor h.inherits.defaultFor hShapes
      (fun field hField i' i value hReached => hReached.assign (hApart field hField) _ value) hBlank

/-- The entries of a base as its own run has them. -/
def ownEntries (m : Mapper) (base : String) : List Field :=
  (m.family base).shaped.map (Field.marked (m.family base).always)

/-- The fields of a base mapped for themselves. -/
def ownRun (m : Mapper) (base root : String) (source : Option (Dict Value)) (depth : Nat) :
    Run Instance :=
  mapFields m (level m depth) (m.family base) root source (.blank base) (ownEntries m base)

theorem shapedOf_inherited_eq (m : Mapper) (base : String) :
    SectionType.shapedOf (SectionType.inherited base (m.family base)) =
      (ownEntries m base).map fun entry => entry.through (base :: entry.chain) := by
  rw [SectionType.shapedOf_inherited, ownEntries, List.map_map]
  rfl

/-- **Inherited fields follow those of the base.** -/
theorem populating_inherited_matched
    (h : m.Embeds inheriting inlining base front back name always) {i : Instance}
    (hUntouched : i.base base = .blank base) (depth : Nat) :
    Run.MatchedBy (PopulatedTo base i)
        (populating m inheriting root source (SectionType.inherited base (m.family base)) i depth)
        (ownRun m base root source depth) ∧
      Run.MatchedBy (fun k j => PopulatedTo base i j k) (ownRun m base root source depth)
        (populating m inheriting root source (SectionType.inherited base (m.family base)) i
          depth) := by
  -- the base has no field without a shape
  have hShapes : ∀ entry ∈ ownEntries m base, entry.shape ≠ .any := by
    intro entry hEntry
    obtain ⟨declared, hDeclared, rfl⟩ := List.mem_map.mp hEntry
    exact h.plain.shaped declared (List.mem_filter.mp hDeclared).1
  -- both start from a blank base, one of them inside the host
  have hStart : PopulatedTo base i i (.blank base) := ⟨hUntouched, rfl, fun _ _ => rfl⟩
  unfold populating ownRun
  -- inherited fields are those of the base, each at the place of the base
  rw [shapedOf_inherited_eq]
  nth_rewrite 2 [← map_through_chain (ownEntries m base)]
  nth_rewrite 3 [← map_through_chain (ownEntries m base)]
  exact ⟨mapFields_matched h.inherits.defaultFor h.plain.defaultFor hShapes
      (fun entry _ j k value hPopulated => hPopulated.assign _ _ value) hStart,
    mapFields_matched h.plain.defaultFor h.inherits.defaultFor hShapes
      (fun entry _ k j value hPopulated => hPopulated.assign _ _ value) hStart⟩

/-- **An inlined field is the run of its base**, on one level less. -/
theorem populating_inlined_eq (h : m.Embeds inheriting inlining base front back name always)
    {v : Value} (hFound : Resolution.resolve m.store root source = .ok (some v))
    (hNull : v.isNull = false) (i : Instance) (depth : Nat) :
    populating m inlining root source [Field.inlinedAs name always base] i (depth + 1) =
      ownRun m base root source depth >>= fun k =>
        pure (i.assign [] name (.section (k.complete base (m.family base).specs))) := by
  -- an inlined field has the shape of its base, which is not decided and not converted
  have hDecided : decidedShape (m.family inlining) i (Field.inlinedAs name always base) =
      .ok (.section base) := if_neg nofun
  have hSubstitute := substitute_of_unconverted h.plain.unconverted
  -- a level below, the base is mapped as the plain section that it is
  have hMapped : (level m (depth + 1)).mapSection base root source =
      ownRun m base root source depth >>= fun k => pure (k.complete base (m.family base).specs) :=
    mapSection_of_plainBase h.plain
  -- the field is read at the root, where something is found
  have hResolved : resolveField m (level m (depth + 1)) root source
      (Field.inlinedAs name always base)
        (ConverterRegistry.substitute m.converters (.section base)).1 =
      ((level m (depth + 1)).mapSection base root source >>= fun k => pure (.section k)) >>=
        fun r => pure (some r) := by
    rw [hSubstitute, bind_assoc]
    exact resolveField_section_of_needed hFound (.inl hNull)
  have hValue := fieldValue_of_resolved hDecided hResolved
  have hShaped : SectionType.shapedOf [Field.inlinedAs name always base] =
      [Field.inlinedAs name always base] := rfl
  -- what it is assigned needs no conversion
  have hConverted : ∀ k : Instance,
      (FieldType.section base).convert (.section (k.complete base (m.family base).specs)) =
        .ok (.section (k.complete base (m.family base).specs)) := fun k => if_pos rfl
  unfold populating
  rw [hShaped]
  -- an inlined field is not located, so its error stays as it is
  show (mapField m (level m (depth + 1)) (m.family inlining) root source i
    (Field.inlinedAs name always base)).mapError (fun e => e) >>= pure = _
  rw [bind_pure, Run.mapError_id, mapField, hValue, hMapped, hSubstitute]
  simp only [bind_assoc, pure_bind]
  refine congrArg _ (funext fun k => ?_)
  show Run.ofOutcome ((FieldType.section base).convert
    (.section (k.complete base (m.family base).specs))) >>= _ = _
  rw [hConverted]
  rfl

section
variable (h : m.Embeds inheriting inlining base front back name always)
include h

/-- **Both hosts populate their bases alike**, once they have come that far. -/
theorem populating_alike {v : Value}
    (hFound : Resolution.resolve m.store root source = .ok (some v)) (hNull : v.isNull = false)
    {i i' : Instance} (hReached : Reached base i i') :
    Run.EndAlike (SameBase base name (m.family base).specs)
      (populating m inheriting root source (SectionType.inherited base (m.family base)) i)
      (populating m inlining root source [Field.inlinedAs name always base] i') := by
  -- the inlined base is a level deeper, which makes no difference to how a run ends
  refine .of_succ (mapFields_grows i' _) (.of_matchedBy (fun depth => ?_) (fun depth => ?_))
  · rw [populating_inlined_eq h hFound hNull, ← bind_pure (populating m inheriting ..)]
    exact (populating_inherited_matched h hReached.untouched depth).1.bind
      fun j k hPopulated => .pure (hPopulated.sameBase hReached name _)
  · rw [populating_inlined_eq h hFound hNull, ← bind_pure (populating m inheriting ..)]
    exact (populating_inherited_matched h hReached.untouched depth).2.bind
      fun k j hPopulated => .pure (hPopulated.sameBase hReached name _)

/-- A host that inherits its base is the sequence of its fields and its last hook. -/
theorem mapSection_inheriting (depth : Nat) :
    (level m (depth + 1)).mapSection inheriting root source =
      hostFields m inheriting root source front (SectionType.inherited base (m.family base)) back
        depth >>= lastHook m inheriting := by
  -- the inherited fields pass discovery in the host as well
  refine mapSection_of_hosts h.inherits (fun field hField hIgnored => ?_) depth
  obtain ⟨entry, hEntry, rfl⟩ := List.mem_map.mp hField
  have hConsidered : entry ∈ (m.family base).considered :=
    List.mem_filter.mpr ⟨hEntry, Bool.not_eq_true' _ |>.mpr hIgnored⟩
  have hCheck := SectionType.exists_discover_iff.mp h.plain.discovered entry hConsidered
  have hOther : (entry.lift base (m.family base).always).shape ≠ .section inheriting :=
    h.other entry hConsidered
  -- what the base lets pass, the host does too, unless the field has the host's own shape
  unfold SectionType.checkField at hCheck ⊢
  rw [if_neg hOther]
  split at hCheck
  · cases hCheck
  · exact hCheck

/-- A host that inlines its base is the sequence of its fields and its last hook. -/
theorem mapSection_inlining (depth : Nat) :
    (level m (depth + 1)).mapSection inlining root source =
      hostFields m inlining root source front [Field.inlinedAs name always base] back depth >>=
        lastHook m inlining := by
  -- the inlined field passes discovery as long as the host is not its own base
  refine mapSection_of_hosts h.inlines (fun field hField _ => ?_) depth
  obtain rfl := List.mem_singleton.mp hField
  have hApart : Shape.section base ≠ .section inlining := by
    intro hSame
    obtain rfl : base = inlining := Shape.section.inj hSame
    -- a base with a field of its own shape does not pass discovery
    have hMem : Field.inlinedAs name always base ∈ (m.family base).considered := by
      refine List.mem_filter.mpr ⟨?_, rfl⟩
      rw [h.inlines.table]
      exact List.mem_append_left _ (List.mem_append_right _ (List.mem_singleton_self _))
    have hOwn : (Field.inlinedAs name always base).shape = .section base := rfl
    have hCheck := SectionType.exists_discover_iff.mp h.plain.discovered _ hMem
    rw [SectionType.checkField, if_pos hOwn] at hCheck
    cases hCheck
  exact if_neg hApart

end

/-! ## What is left of the run -/

/-- Fields that are assigned elsewhere leave a base alone. -/
theorem base_replay_of_apart {turns : List Turn}
    (hApart : ∀ turn ∈ turns, turn.entry.chain.head? ≠ some base) (j : Instance) :
    (j.replay turns).base base = j.base base := by
  induction turns generalizing j with
  | nil => rfl
  | cons turn turns ih =>
    obtain ⟨hFirst, hRest⟩ := List.forall_mem_cons.mp hApart
    -- a turn either assigns elsewhere or assigns nothing
    rw [Instance.replay_cons, ih hRest, Turn.take]
    split
    · exact Instance.base_assign_of_ne hFirst j _ _
    · rfl

/-- The fields of a host that are left are turns on the instance. -/
theorem exists_turns_of_remaining {host : String} {lower : Level} {fields : List Field}
    (hAlways : (m.family host).always = false) {j k : Instance}
    (hReturns : (mapFields m lower (m.family host) root source j fields).Returns k) :
    ∃ turns : List Turn, turns.map Turn.entry = fields ∧ j.replay turns = k := by
  -- without a marker on the section its fields are what they are
  have hMarked : fields.map (Field.marked (m.family host).always) = fields := by
    rw [hAlways]
    exact (List.map_congr_left fun field _ => field.marked_false).trans (List.map_id _)
  rw [← hMarked] at hReturns
  obtain ⟨turns, hEntries, -, hReplay⟩ := mapFields_returns_iff.mp hReturns
  exact ⟨turns, hEntries, hReplay⟩

/-- What was assigned stays assigned. -/
theorem assigned_prefix_replay (j : Instance) (turns : List Turn) :
    j.assigned <+: (j.replay turns).assigned :=
  ⟨_, (Instance.assignedUnder_replay j turns []).symm⟩

/-- The fields that are left to a host that inherits its base are its own. -/
theorem mem_own_of_mem_remaining (h : m.Embeds inheriting inlining base front back name always)
    {field : Field} (hField : field ∈ remaining m inheriting back) : field ∈ front ++ back := by
  -- what is left are the shaped fields at the back and all undecided ones
  rcases List.mem_append.mp hField with hBack | hUndecided
  · exact List.mem_append_right _ (SectionType.mem_shapedOf hBack).1
  · obtain ⟨hConsidered, hAny⟩ := List.mem_filter.mp hUndecided
    obtain ⟨hMem, hIgnored⟩ := List.mem_filter.mp hConsidered
    rw [h.inherits.table, List.append_assoc] at hMem
    rcases List.mem_append.mp hMem with hFront | hMem
    · exact List.mem_append_left _ hFront
    · rcases List.mem_append.mp hMem with hInherited | hBack
      · -- a field of the base has a shape
        obtain ⟨entry, hEntry, rfl⟩ := List.mem_map.mp hInherited
        have hConsidered : entry ∈ (m.family base).considered :=
          List.mem_filter.mpr ⟨hEntry, hIgnored⟩
        exact absurd (of_decide_eq_true hAny) (h.plain.shaped entry hConsidered)
      · exact List.mem_append_right _ hBack

/-! ## Both ways -/

/-- Inheriting a base and inlining it come to the same. -/
structure PopulatedAlike (m : Mapper) (inheriting inlining base root : String)
    (source : Option (Dict Value)) (front back : List Field) (name : String) (always : Bool) :
    Prop where
  /-- Both hosts are mapped by their fields in front of the base, by those of the base or the field
  for it, by the ones that are left, and by the last hook. -/
  inherits : ∀ depth, (level m (depth + 1)).mapSection inheriting root source =
    hostFields m inheriting root source front (SectionType.inherited base (m.family base)) back
      depth >>= lastHook m inheriting
  inlines : ∀ depth, (level m (depth + 1)).mapSection inlining root source =
    hostFields m inlining root source front [Field.inlinedAs name always base] back depth >>=
      lastHook m inlining
  /-- Both come as far as their bases, or fail before with the same error. -/
  reach : Run.EndAlike (Reached base) (leading m inheriting root source front)
    (leading m inlining root source front)
  /-- From there both populate their bases with the same values, or fail with the same error. -/
  populate : ∀ i i', Reached base i i' →
    Run.EndAlike (SameBase base name (m.family base).specs)
      (populating m inheriting root source (SectionType.inherited base (m.family base)) i)
      (populating m inlining root source [Field.inlinedAs name always base] i')
  /-- Such an error is the one that both mappings end with. -/
  fails : ∀ i i' e, Run.Ends (leading m inheriting root source front) (.ok i) →
    Run.Ends (leading m inlining root source front) (.ok i') →
    Run.Ends (populating m inheriting root source (SectionType.inherited base (m.family base)) i)
      (.error e) →
      Run.Ends (fun depth => (level m depth).mapSection inheriting root source) (.error e) ∧
        Run.Ends (fun depth => (level m depth).mapSection inlining root source) (.error e)
  /-- When all fields are mapped, the bases are still the same. -/
  kept : ∀ k k',
    Run.Ends (hostFields m inheriting root source front
      (SectionType.inherited base (m.family base)) back) (.ok k) →
    Run.Ends (hostFields m inlining root source front [Field.inlinedAs name always base] back)
      (.ok k') →
      (name, .section ((k.base base).complete base (m.family base).specs)) ∈ k'.assigned

section
variable (h : m.Embeds inheriting inlining base front back name always)
include h

/-- Hosts that have come as far as their bases have come there alike. -/
theorem reached_of_ends {i i' : Instance}
    (hEnds : Run.Ends (leading m inheriting root source front) (.ok i))
    (hEnds' : Run.Ends (leading m inlining root source front) (.ok i')) : Reached base i i' := by
  obtain ⟨other, hOther, hReached⟩ := (leading_alike h).there i hEnds
  obtain rfl : other = i' := Except.ok.inj (hOther.unique (mapFields_grows _ _) hEnds')
  exact hReached

variable {v : Value} (hFound : Resolution.resolve m.store root source = .ok (some v))
  (hNull : v.isNull = false)
include hFound hNull

theorem sections_fail_alike {i i' : Instance} {e : Error}
    (hEnds : Run.Ends (leading m inheriting root source front) (.ok i))
    (hEnds' : Run.Ends (leading m inlining root source front) (.ok i'))
    (hFails : Run.Ends
      (populating m inheriting root source (SectionType.inherited base (m.family base)) i)
      (.error e)) :
    Run.Ends (fun depth => (level m depth).mapSection inheriting root source) (.error e) ∧
      Run.Ends (fun depth => (level m depth).mapSection inlining root source) (.error e) := by
  have hPopulating :=
    populating_alike h hFound hNull (reached_of_ends h hEnds hEnds')
  -- the inlining host fails there with the same error
  have hFails' := (hPopulating.error_iff e).mp hFails
  have hHost : Run.Ends (hostFields m inheriting root source front
      (SectionType.inherited base (m.family base)) back) (.error e) :=
    -- both come that far, so it is their own error
    .bind_error (mapFields_grows _ _) (mapFields_grows i _) hEnds hFails
  have hHost' : Run.Ends (hostFields m inlining root source front
      [Field.inlinedAs name always base] back) (.error e) :=
    .bind_error (mapFields_grows _ _) (mapFields_grows i' _) hEnds' hFails'
  exact ⟨hHost.above (mapSection_inheriting h), hHost'.above (mapSection_inlining h)⟩

theorem bases_kept_alike {k k' : Instance}
    (hEnds : Run.Ends (hostFields m inheriting root source front
      (SectionType.inherited base (m.family base)) back) (.ok k))
    (hEnds' : Run.Ends (hostFields m inlining root source front
      [Field.inlinedAs name always base] back) (.ok k')) :
    (name, .section ((k.base base).complete base (m.family base).specs)) ∈ k'.assigned := by
  obtain ⟨depth, hReturns⟩ := hEnds
  obtain ⟨depth', hReturns'⟩ := hEnds'
  -- both runs have come past the fields in front and past the base
  obtain ⟨i, hLeading, hRest⟩ := Run.returns_bind.mp hReturns
  obtain ⟨j, hPopulating, hLeft⟩ := Run.returns_bind.mp hRest
  obtain ⟨i', hLeading', hRest'⟩ := Run.returns_bind.mp hReturns'
  obtain ⟨j', hPopulating', hLeft'⟩ := Run.returns_bind.mp hRest'
  have hReached := reached_of_ends h ⟨depth, hLeading⟩ ⟨depth', hLeading'⟩
  obtain ⟨other, hOther, hSame⟩ :=
    (populating_alike h hFound hNull hReached).there j ⟨depth, hPopulating⟩
  -- the inlining host makes one instance only, so it is the related one
  obtain rfl : other = j' := Except.ok.inj
    (hOther.unique (mapFields_grows _ _) ⟨depth', hPopulating'⟩)
  -- what is left is assigned elsewhere in the one host, and after the base in the other one
  have hKept : k.base base = j.base base := by
    obtain ⟨turns, hEntries, rfl⟩ := exists_turns_of_remaining h.inherits.notAlways hLeft
    refine base_replay_of_apart (fun turn hTurn => ?_) j
    have hEntry : turn.entry ∈ remaining m inheriting back := by
      rw [← hEntries]
      exact List.mem_map_of_mem hTurn
    exact h.inherits.apart _ (mem_own_of_mem_remaining h hEntry)
  -- the base was assigned to the field, and later turns only append
  obtain ⟨turns, -, rfl⟩ := exists_turns_of_remaining h.inlines.notAlways hLeft'
  refine (assigned_prefix_replay other turns).subset ?_
  rw [hSame.assigned, hKept]
  exact List.mem_append_right _ (List.mem_singleton_self _)

/-- **Inheriting a base and inlining it populate it alike**, wherever something is found at the
root of the host. -/
theorem populated_alike :
    PopulatedAlike m inheriting inlining base root source front back name always where
  inherits := mapSection_inheriting h
  inlines := mapSection_inlining h
  reach := leading_alike h
  populate := fun _ _ hReached => populating_alike h hFound hNull hReached
  fails := fun _ _ _ hEnds hEnds' hFails => sections_fail_alike h hFound hNull hEnds hEnds' hFails
  kept := fun _ _ hEnds hEnds' => bases_kept_alike h hFound hNull hEnds hEnds'

end

/-- Limits that inherit a base of their own, all of whose fields are always resolved. -/
def limitsBase : SectionType :=
  { SectionType.plain with
    fields := .ofType "connections" (.native .int) :: SectionType.inherited "core" levelBase }

/-- A site with limits: a flat one inherits them, a nested one has a field for them. -/
def siteFamily : Family := fun name =>
  if name = "limits" then limitsBase
  else
    { SectionType.plain with
      fields := .ofType "title" (.native .string) ::
        if name = "nested" then [Field.inlinedAs "limits" false "limits"]
        else SectionType.inherited "limits" limitsBase }

def siteMapper : Mapper :=
  ⟨siteFamily, .ofRoot [("site", .map [("connections", .long 3), ("title", .string "t")])],
    .interpreter, none, []⟩

theorem siteMapper_embeds :
    siteMapper.Embeds "flat" "nested" "limits" [.ofType "title" (.native .string)] [] "limits"
      false where
  -- each part is a fact about the three sections and their tables
  plain :=
    { constructible := rfl
      discovered := ⟨_, rfl⟩
      shaped := by decide
      defaultFor := fun _ _ _ => rfl
      afterParsing := fun _ _ => rfl
      unconverted := nofun }
  inherits :=
    { constructible := rfl
      notAlways := rfl
      defaultFor := fun _ _ _ => rfl
      table := rfl
      passes := List.forall_mem_singleton.mpr fun _ => rfl
      apart := List.forall_mem_singleton.mpr nofun }
  inlines :=
    { constructible := rfl
      notAlways := rfl
      defaultFor := fun _ _ _ => rfl
      table := rfl
      passes := List.forall_mem_singleton.mpr fun _ => rfl
      apart := List.forall_mem_singleton.mpr nofun }
  other := by decide

/-- The limits of the two sites are the same, those inherited by the limits included. -/
theorem sites_alike :
    siteMapper.Embeds "flat" "nested" "limits" [.ofType "title" (.native .string)] [] "limits"
        false ∧
      Resolution.resolve siteMapper.store "site" none =
        .ok (some (.map [("connections", .long 3), ("title", .string "t")])) ∧
      PopulatedAlike siteMapper "flat" "nested" "limits" "site" none
        [.ofType "title" (.native .string)] [] "limits" false ∧
      ((level siteMapper 3).mapSection "flat" "site" none).run.map (Except.map fun i =>
          ((i.base "limits").assigned, ((i.base "limits").base "core").assigned)) =
        some (.ok ([("connections", .native (.int 3))], [("level", .native (.long 0))])) ∧
      ((level siteMapper 3).mapSection "nested" "site" none).run.map (Except.map fun i =>
          i.assigned.map Prod.fst) = some (.ok ["title", "limits"]) := by
  have hFound : Resolution.resolve siteMapper.store "site" none =
      .ok (some (.map [("connections", .long 3), ("title", .string "t")])) := rfl
  exact ⟨siteMapper_embeds, hFound, populated_alike siteMapper_embeds hFound rfl, rfl, rfl⟩

end Mapping

end TypedConfig
