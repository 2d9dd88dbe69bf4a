import TypedConfig.Proofs.Arranged
import TypedConfig.Proofs.Turns

/-!
# Where undecided fields are declared

Fields whose shape is decided while mapping come last, whatever stands before or after
them in the table of their section. So two tables with the same undecided fields and the
same other fields, each in the same order, are mapped in the same way, however the two
kinds are mixed.

The engine runs over both families side by side. Discovery fails over the same field,
since an undecided one never makes it fail, and what it hands on has the same order of
mapping. From there on everything is the same, except for the records that instances
carry of the tables of their sections, and these are arranged alike. So the runs end
alike, step by step along the engine and then level by level.

Main results:

* `SectionType.discover_alike` — discovery and the order of mapping.
* `Mapping.level_alike` — one level after the other ends alike.
* `Mapping.takenInOrder_alike` — the assignments are the same.
* `Mapper.mapping_eq_of_sameFields` — where undecided fields are declared does not matter.
-/

namespace TypedConfig

/-! ## Runs that end alike -/

namespace Run

variable {α β γ δ : Type _} {f : α → γ} {g : β → δ}

/-- Each run ends where the other one does, with the same error or with a value that a function does
not tell apart from the other. -/
structure Alike (f : α → γ) (r r' : Run α) : Prop where
  there : MatchedBy (fun a b => f a = f b) r r'
  back : MatchedBy (fun a b => f a = f b) r' r

namespace Alike

theorem refl (r : Run α) : Alike f r r := by
  have hSelf : MatchedBy (fun a b => f a = f b) r r := by
    refine .refl ?_ r
    exact fun _ => rfl
  exact ⟨hSelf, hSelf⟩

theorem pure {a b : α} (h : f a = f b) : Alike f (Pure.pure a) (Pure.pure b) :=
  ⟨.pure h, .pure h.symm⟩

theorem ofOutcome {o o' : Outcome α} (h : o.map f = o'.map f) :
    Alike f (Run.ofOutcome o) (Run.ofOutcome o') := by
  -- an error is alike only to itself
  cases o with
  | error e =>
    cases o' with
    | error e' =>
      obtain rfl : e = e' := Except.error.inj h
      exact .refl _
    | ok b => cases h
  | ok a =>
    cases o' with
    | error e' => cases h
    | ok b => exact .pure (Except.ok.inj h)

/-- Runs that end alike go on alike. -/
theorem bind {r r' : Run α} {k k' : α → Run β} (h : Alike f r r')
    (hRest : ∀ a b, f a = f b → Alike g (k a) (k' b)) : Alike g (r >>= k) (r' >>= k') :=
  ⟨h.there.bind fun a b hSame => (hRest a b hSame).there,
    h.back.bind fun b a hSame => (hRest a b hSame.symm).back⟩

/-- After the same run, only the rest has to be alike. -/
theorem bind_same (r : Run α) {k k' : α → Run β} (hRest : ∀ a, Alike g (k a) (k' a)) :
    Alike g (r >>= k) (r >>= k') :=
  ⟨.bind_same r fun a => (hRest a).there, .bind_same r fun a => (hRest a).back⟩

theorem mapError {r r' : Run α} (h : Alike f r r') (annotate : Error → Error) :
    Alike f (r.mapError annotate) (r'.mapError annotate) :=
  ⟨h.there.mapError annotate, h.back.mapError annotate⟩

end Alike

end Run

/-! ## Tables -/

namespace SectionType

/-- Two tables have the same fields of undecided shape and the same others, each in the same
order. How the two kinds are mixed is left open. -/
structure SameFields (fields others : List Field) : Prop where
  shaped : fields.filter (fun field => field.shape ≠ .any) =
    others.filter (fun field => field.shape ≠ .any)
  undecided : fields.filter (fun field => field.shape = .any) =
    others.filter (fun field => field.shape = .any)

theorem SameFields.symm {fields others : List Field} (h : SameFields fields others) :
    SameFields others fields :=
  ⟨h.shaped.symm, h.undecided.symm⟩

/-- The section with another table. -/
def withFields (type : SectionType) (fields : List Field) : SectionType :=
  { type with fields }

variable {type : SectionType} {fields : List Field}

theorem shaped_withFields (h : SameFields type.fields fields) :
    (type.withFields fields).shaped = type.shaped := by
  show (fields.filter _).filter _ = (type.fields.filter _).filter _
  rw [List.filter_comm, ← h.shaped, List.filter_comm]

theorem undecided_withFields (h : SameFields type.fields fields) :
    (type.withFields fields).undecided = type.undecided := by
  show (fields.filter _).filter _ = (type.fields.filter _).filter _
  rw [List.filter_comm, ← h.undecided, List.filter_comm]

/-- A field of undecided shape always passes. -/
theorem discoverField_of_any (name : String) (always : Bool) {field : Field}
    (hAny : field.shape = .any) : discoverField name always field = .ok (field.marked always) := by
  have hOther : Shape.any ≠ .section name := by
    intro hSame
    cases hSame
  rw [discoverField, checkField, hAny, if_neg hOther]
  rfl

/-- Discovery fails over the fields with a shape alone. -/
theorem discover_eq_error_iff {name : String} {e : Error} :
    type.discover name = .error e ↔
      collect (discoverField name type.always) type.shaped = .error e := by
  have hUndecided : ∀ field : Field, ¬field.shape ≠ .any →
      ∃ found, discoverField name type.always field = .ok found := fun field hShape =>
    ⟨_, discoverField_of_any name type.always (Decidable.not_not.mp hShape)⟩
  rw [discover_eq_collect]
  exact collect_error_iff_filter (fun field : Field => field.shape ≠ .any) hUndecided

/-- The order of mapping is that of the records, arranged. -/
theorem arrange_map_toFieldSpec (found : List Field) :
    FieldSpec.arrange (found.map Field.toFieldSpec) =
      (mappingOrder found).map Field.toFieldSpec := by
  rw [FieldSpec.arrange, mappingOrder, List.filter_map, List.filter_map, List.map_append]
  rfl

/-- **Both tables fail discovery over the same field**, or both pass it, and what is found is
mapped in the same order. -/
theorem discover_alike (name : String) (h : SameFields type.fields fields) :
    (∃ e, type.discover name = .error e ∧ (type.withFields fields).discover name = .error e) ∨
      ∃ found others, type.discover name = .ok found ∧
        (type.withFields fields).discover name = .ok others ∧
        mappingOrder found = mappingOrder others := by
  -- the errors come from the fields with a shape, which are the same
  have hError : ∀ e, type.discover name = .error e ↔
      (type.withFields fields).discover name = .error e := by
    intro e
    rw [discover_eq_error_iff, discover_eq_error_iff, shaped_withFields h]
    rfl
  cases hFound : type.discover name with
  | error e => exact .inl ⟨e, rfl, (hError e).mp hFound⟩
  | ok found =>
    cases hOthers : (type.withFields fields).discover name with
    | error e => exact absurd (hFound.symm.trans ((hError e).mpr hOthers)) nofun
    | ok others =>
      refine .inr ⟨found, others, rfl, rfl, ?_⟩
      -- what is found is ordered by the two parts of the table
      rw [mappingOrder_of_discover hFound, mappingOrder_of_discover hOthers, shaped_withFields h,
        undecided_withFields h]
      rfl

end SectionType

/-! ## Hooks -/

/-- The mapper with other tables for its sections. -/
def Mapper.withTables (m : Mapper) (tables : String → List Field) : Mapper :=
  { m with family := fun name => (m.family name).withFields (tables name) }

/-- No hook and no converter looks at the order of declarations: not the last hook in the list that
it is given, and none in the records of instances, which mapping writes and hooks have no part
in. -/
structure Mapper.IgnoresOrder (m : Mapper) : Prop where
  decide : ∀ name {i j : Instance} (field : String), i.arranged = j.arranged →
    (m.family name).decide i field = (m.family name).decide j field
  defaultFor : ∀ name {i j : Instance} (shape : Shape) (field : String), i.arranged = j.arranged →
    ((m.family name).defaultFor i shape field).map Resolved.arranged =
      ((m.family name).defaultFor j shape field).map Resolved.arranged
  afterParsing : ∀ name {i j : Instance} {specs others : List FieldSpec},
    i.arranged = j.arranged → FieldSpec.arrange specs = FieldSpec.arrange others →
      ((m.family name).afterParsing i specs).map Instance.arranged =
        ((m.family name).afterParsing j others).map Instance.arranged
  converter : ∀ {registry : ConverterRegistry} {shape : Shape} {converter : Converter},
    m.converters = some registry → registry.converterFor shape = some converter →
      ∀ {r s : Resolved} (evaluator : Evaluator), r.arranged = s.arranged →
        (converter r evaluator).map Resolved.arranged =
          (converter s evaluator).map Resolved.arranged

/-! ## The engine -/

namespace Mapping

open Run (Alike)

variable {m : Mapper} {tables : String → List Field} {lower upper : Level}

/-- What a level does, a second level does alike. -/
structure Level.Alike (lower upper : Level) : Prop where
  mapSection : ∀ name root source, Run.Alike Instance.arranged
    (lower.mapSection name root source) (upper.mapSection name root source)
  interpret : ∀ v shape,
    Run.Alike Resolved.arranged (lower.interpret v shape) (upper.interpret v shape)

section
variable (hIgnores : m.IgnoresOrder)
include hIgnores

/-- The shape that is decided for a field is the same. -/
theorem decidedShape_alike (name : String) {i j : Instance} (hInstance : i.arranged = j.arranged)
    (field : Field) : decidedShape ((m.withTables tables).family name) j field =
      decidedShape (m.family name) i field := by
  unfold decidedShape
  rw [hIgnores.decide name field.name hInstance]
  rfl

theorem applyConverter_alike (shape : Shape) {r s : Resolved} (h : r.arranged = s.arranged) :
    Alike Resolved.arranged
      (applyConverter m (ConverterRegistry.substitute m.converters shape).2 r)
      (applyConverter (m.withTables tables) (ConverterRegistry.substitute m.converters shape).2
        s) := by
  cases hRegistry : m.converters with
  | none => exact .pure h
  | some registry =>
    -- with or without a required shape the converter is the registered one
    have hConverter : (ConverterRegistry.substitute (some registry) shape).2 =
        registry.converterFor shape := by
      unfold ConverterRegistry.substitute
      dsimp only
      split
      · next hFor _ => exact hFor.symm
      · rfl
    rw [hConverter]
    cases hFor : registry.converterFor shape with
    | none => exact .pure h
    | some converter =>
      exact .ofOutcome (hIgnores.converter hRegistry hFor m.evaluator h)

variable (hLevels : lower.Alike upper)
include hLevels

theorem convertElement_alike (shape : Shape) (v : Value) :
    Alike Resolved.arranged (convertElement m lower shape v)
      (convertElement (m.withTables tables) upper shape v) := by
  unfold convertElement
  split
  · exact .refl _
  · exact (hLevels.interpret _ _).bind fun r s h => applyConverter_alike hIgnores shape h

theorem convertItemsFrom_alike (element : Shape) (items : List Value) (index : Nat) :
    Alike (List.map Resolved.arranged) (convertItemsFrom m lower element index items)
      (convertItemsFrom (m.withTables tables) upper element index items) := by
  induction items generalizing index with
  | nil => exact .refl _
  | cons item items ih =>
    -- the index is the same on both sides
    refine ((convertElement_alike hIgnores hLevels element item).mapError _).bind fun r s h => ?_
    refine (ih (index + 1)).bind fun results others hRest => ?_
    exact .pure (congrArg₂ List.cons h hRest)

theorem convertItems_alike (element : Shape) (v : Value) :
    Alike (List.map Resolved.arranged) (convertItems m lower element v)
      (convertItems (m.withTables tables) upper element v) := by
  unfold convertItems
  refine .bind_same _ fun evaluated => ?_
  cases evaluated with
  | list items | set items => exact convertItemsFrom_alike hIgnores hLevels element items 0
  | _ => exact .refl _

theorem convertEntry_alike (key element : Shape) (entry : String × Value) :
    Alike (Prod.map Resolved.arranged Resolved.arranged) (convertEntry m lower key element entry)
      (convertEntry (m.withTables tables) upper key element entry) :=
  ((convertElement_alike hIgnores hLevels key _).mapError _).bind fun _ _ hKey =>
    ((convertElement_alike hIgnores hLevels element _).mapError _).bind fun _ _ hValue =>
      .pure (congrArg₂ Prod.mk hKey hValue)

theorem convertEntryList_alike (key element : Shape) (entries : List (String × Value)) :
    Alike (List.map (Prod.map Resolved.arranged Resolved.arranged))
      (convertEntryList m lower key element entries)
      (convertEntryList (m.withTables tables) upper key element entries) := by
  induction entries with
  | nil => exact .refl _
  | cons entry entries ih =>
    refine (convertEntry_alike hIgnores hLevels key element entry).bind fun e e' h => ?_
    refine ih.bind fun results others hRest => ?_
    exact .pure (congrArg₂ List.cons h hRest)

theorem convertEntries_alike (key element : Shape) (v : Value) :
    Alike (List.map (Prod.map Resolved.arranged Resolved.arranged))
      (convertEntries m lower key element v)
      (convertEntries (m.withTables tables) upper key element v) := by
  unfold convertEntries
  refine .bind_same _ fun evaluated => ?_
  -- the value is evaluated alike, and only a map has entries
  cases evaluated with
  | map entries => exact convertEntryList_alike hIgnores hLevels key element entries
  | _ => exact .refl _

theorem interpret_alike (v : Value) (shape : Shape) :
    Alike Resolved.arranged (interpret m lower v shape)
      (interpret (m.withTables tables) upper v shape) := by
  cases shape with
  -- containers are alike when what is in them is
  | list element =>
    refine (convertItems_alike hIgnores hLevels element v).bind fun items others h => .pure ?_
    rw [Resolved.arranged, Resolved.arranged, Resolved.arrangedItems_eq_map,
      Resolved.arrangedItems_eq_map, h]
  | array element =>
    refine (convertItems_alike hIgnores hLevels element v).bind fun items others h => .pure ?_
    rw [Resolved.arranged, Resolved.arranged, Resolved.arrangedItems_eq_map,
      Resolved.arrangedItems_eq_map, h]
  | set element =>
    refine (convertItems_alike hIgnores hLevels element v).bind fun items others h => .pure ?_
    -- the equality of elements does not see the order of declarations
    rw [Resolved.arranged, Resolved.arranged, Resolved.arrangedItems_eq_map,
      Resolved.arrangedItems_eq_map, ← keepFirst_map Resolved.sameValue_arranged,
      ← keepFirst_map Resolved.sameValue_arranged, h]
  | map key element =>
    refine (convertEntries_alike hIgnores hLevels key element v).bind fun es others h => .pure ?_
    rw [Resolved.arranged, Resolved.arranged, Resolved.arrangedEntries_eq_map,
      Resolved.arrangedEntries_eq_map, h]
  | «section» name =>
    exact (hLevels.mapSection name "" (some (v.asMap?.getD []))).bind fun i j h =>
      .pure (congrArg Resolved.section h)
  | _ => exact .refl _

omit hIgnores in
theorem resolveField_alike (root : String) (source : Option (Dict Value)) (field : Field)
    (shape : Shape) :
    Alike (Option.map Resolved.arranged) (resolveField m lower root source field shape)
      (resolveField (m.withTables tables) upper root source field shape) := by
  unfold resolveField
  dsimp only
  refine .bind_same _ fun found => ?_
  split
  · exact .refl _
  · cases shape with
    | «section» name =>
      refine (hLevels.mapSection name _ source).bind fun i j h => ?_
      exact .pure (congrArg (some ∘ Resolved.section) h)
    | _ =>
      refine (hLevels.interpret _ _).bind fun r s h => ?_
      exact .pure (congrArg some h)

variable {name root : String} {source : Option (Dict Value)} {i j : Instance}

theorem fieldValue_alike (hInstance : i.arranged = j.arranged) (field : Field) :
    Alike (Option.map Resolved.arranged)
      (fieldValue m lower (m.family name) root source i field)
      (fieldValue (m.withTables tables) upper ((m.withTables tables).family name) root source j
        field) := by
  unfold fieldValue
  rw [decidedShape_alike hIgnores name hInstance field]
  refine .bind_same _ fun shape => ?_
  dsimp only
  refine (resolveField_alike hLevels root source field _).bind fun r s h => ?_
  -- both runs have found something, or neither has
  cases r with
  | none =>
    obtain rfl : s = none := Option.map_eq_none_iff.mp h.symm
    -- the default is asked with instances that are alike
    exact .pure (hIgnores.defaultFor name shape field.name hInstance)
  | some r =>
    obtain ⟨s, rfl, hSame⟩ := Option.map_eq_some_iff.mp h.symm
    refine (applyConverter_alike hIgnores shape hSame.symm).bind fun c d hConverted => ?_
    exact .pure (congrArg some hConverted)

theorem mapLocatedField_alike (hInstance : i.arranged = j.arranged) (field : Field) :
    Alike Instance.arranged (mapLocatedField m lower (m.family name) root source i field)
      (mapLocatedField (m.withTables tables) upper ((m.withTables tables).family name) root source
        j field) := by
  unfold mapLocatedField mapField
  refine ((fieldValue_alike hIgnores hLevels hInstance field).bind fun r s h => ?_).mapError _
  -- nothing is assigned, or something that is alike
  cases r with
  | none =>
    obtain rfl : s = none := Option.map_eq_none_iff.mp h.symm
    exact .pure hInstance
  | some r =>
    obtain ⟨s, rfl, hSame⟩ := Option.map_eq_some_iff.mp h.symm
    have hConverted := field.type.convert_alike hSame.symm
    refine (Alike.ofOutcome hConverted).bind fun value other hValue => ?_
    refine .pure ?_
    rw [Instance.arranged_assign, Instance.arranged_assign, hInstance, hValue]

theorem mapFields_alike (hInstance : i.arranged = j.arranged) (fields : List Field) :
    Alike Instance.arranged (mapFields m lower (m.family name) root source i fields)
      (mapFields (m.withTables tables) upper ((m.withTables tables).family name) root source j
        fields) := by
  induction fields generalizing i j with
  | nil => exact .pure hInstance
  | cons field fields ih =>
    exact (mapLocatedField_alike hIgnores hLevels hInstance field).bind fun _ _ h => ih h

variable (hTables : ∀ name, SectionType.SameFields (m.family name).fields (tables name))
include hTables

theorem mapSection_alike (name root : String) (source : Option (Dict Value)) :
    Alike Instance.arranged (Mapping.mapSection m lower name root source)
      (Mapping.mapSection (m.withTables tables) upper name root source) := by
  unfold Mapping.mapSection
  dsimp only
  -- whether an instance can be made is not a matter of the table
  have hMade : ((m.withTables tables).family name).constructible =
      (m.family name).constructible := rfl
  rw [hMade]
  split
  · exact .refl _
  · -- discovery fails alike or finds the same order
    rcases SectionType.discover_alike name (hTables name) with
      ⟨e, hError, hError'⟩ | ⟨found, others, hFound, hOthers, hOrder⟩
    · rw [hError, show ((m.withTables tables).family name).discover name = .error e from hError',
        Run.ofOutcome_error_bind, Run.ofOutcome_error_bind]
      exact .refl _
    · rw [hFound, show ((m.withTables tables).family name).discover name = .ok others from hOthers,
        Run.ofOutcome_ok_bind, Run.ofOutcome_ok_bind, ← hOrder]
      refine (mapFields_alike hIgnores hLevels rfl _).bind fun i j hMapped => ?_
      -- the declarations that the last hook sees differ in their order at most
      have hSpecs : FieldSpec.arrange (found.map Field.toFieldSpec) =
          FieldSpec.arrange (others.map Field.toFieldSpec) := by
        rw [SectionType.arrange_map_toFieldSpec, SectionType.arrange_map_toFieldSpec, hOrder]
      refine (Alike.ofOutcome (hIgnores.afterParsing name hMapped hSpecs)).bind
        fun parsed parsed' hParsed => ?_
      exact .pure (Instance.arranged_complete hParsed name hSpecs)

theorem Level.Alike.above : (lower.above m).Alike (upper.above (m.withTables tables)) :=
  ⟨mapSection_alike hIgnores hLevels hTables, interpret_alike hIgnores hLevels⟩

end

/-- **One level after the other does the same.** -/
theorem level_alike (hIgnores : m.IgnoresOrder)
    (hTables : ∀ name, SectionType.SameFields (m.family name).fields (tables name)) (depth : Nat) :
    (level m depth).Alike (level (m.withTables tables) depth) := by
  induction depth with
  | zero => exact ⟨fun _ _ _ => .refl _, fun _ _ => .refl _⟩
  | succ depth ih => exact ih.above hIgnores hTables

end Mapping

/-! ## Assignments -/

/-- The turn, with the records in its value arranged. -/
def Turn.arranged (turn : Turn) : Turn :=
  { turn with value := turn.value.map Typed.arranged }

namespace Mapping

variable {m : Mapper} {tables : String → List Field} {lower upper : Level} {name root : String}
  {source : Option (Dict Value)} {i j : Instance}

theorem take_alike {turn other : Turn} (hTurn : other.arranged = turn.arranged)
    (hInstance : i.arranged = j.arranged) : (turn.take i).arranged = (other.take j).arranged := by
  obtain ⟨entry, shape, value⟩ := turn
  obtain ⟨entry', shape', value'⟩ := other
  obtain ⟨rfl, rfl, hValue⟩ := Turn.mk.injEq .. |>.mp hTurn
  cases value with
  | none =>
    obtain rfl : value' = none := Option.map_eq_none_iff.mp hValue
    exact hInstance
  | some value =>
    obtain ⟨value', rfl, hSame⟩ := Option.map_eq_some_iff.mp hValue
    show (i.assign _ _ value).arranged = (j.assign _ _ value').arranged
    rw [Instance.arranged_assign, Instance.arranged_assign, hInstance, hSame]

theorem replay_alike {turns others : List Turn}
    (hTurns : others.map Turn.arranged = turns.map Turn.arranged)
    (hInstance : i.arranged = j.arranged) :
    (i.replay turns).arranged = (j.replay others).arranged := by
  induction turns generalizing i j others with
  | nil =>
    obtain rfl : others = [] := List.map_eq_nil_iff.mp hTurns
    exact hInstance
  | cons turn turns ih =>
    -- turn by turn, from instances that are alike
    obtain ⟨other, others, rfl, hTurn, hRest⟩ := List.map_eq_cons_iff.mp hTurns
    rw [Instance.replay_cons, Instance.replay_cons]
    exact ih hRest (take_alike hTurn hInstance)

section
variable (tables) (hIgnores : m.IgnoresOrder) (hLevels : lower.Alike upper)
include hIgnores hLevels

/-- What is assigned at a turn of one mapping is assigned at a turn of the other. -/
theorem takenOn_alike (hInstance : i.arranged = j.arranged) {turn : Turn}
    (h : turn.TakenOn m lower (m.family name) root source i) :
    ∃ other : Turn, other.arranged = turn.arranged ∧
      other.TakenOn (m.withTables tables) upper ((m.withTables tables).family name) root source
        j := by
  obtain ⟨entry, shape, value⟩ := turn
  obtain ⟨hDecided, resolved, hResolved, hValue⟩ := h
  have hValues : Run.Alike (Option.map Resolved.arranged)
      (fieldValue m lower (m.family name) root source i (entry.marked (m.family name).always))
      (fieldValue (m.withTables tables) upper ((m.withTables tables).family name) root source j
        (entry.marked (m.family name).always)) := fieldValue_alike hIgnores hLevels hInstance _
  obtain ⟨resolved', hResolved', hSame⟩ := hValues.there.returns _ hResolved
  -- the shape is decided by hooks that do not look at the order
  have hDecided' : decidedShape ((m.withTables tables).family name) j entry = .ok shape := by
    rw [decidedShape_alike hIgnores name hInstance entry, hDecided]
  cases resolved with
  | none =>
    obtain rfl : resolved' = none := Option.map_eq_none_iff.mp hSame.symm
    exact ⟨⟨entry, shape, value⟩, rfl, hDecided', none, hResolved', hValue⟩
  | some r =>
    obtain ⟨r', rfl, hArranged⟩ := Option.map_eq_some_iff.mp hSame.symm
    cases value with
    | none => cases hValue
    | some value =>
      -- the same conversion succeeds, with the same value
      have hConverted : (entry.type.convert r').map Typed.arranged = .ok value.arranged := by
        rw [entry.type.convert_alike hArranged,
          show entry.type.convert r = .ok value from Option.some.inj hValue]
        rfl
      cases hOther : entry.type.convert r' with
      | error e =>
        rw [hOther] at hConverted
        cases hConverted
      | ok value' =>
        rw [hOther] at hConverted
        have hValues : value'.arranged = value.arranged := Except.ok.inj hConverted
        exact ⟨⟨entry, shape, some value'⟩,
          congrArg (fun value => Turn.mk entry shape (some value)) hValues,
          hDecided', some r', hResolved', congrArg some hOther⟩

theorem takenInOrder_alike (hInstance : i.arranged = j.arranged) {turns : List Turn}
    (h : TakenInOrder m lower (m.family name) root source i turns) :
    ∃ others : List Turn, others.map Turn.arranged = turns.map Turn.arranged ∧
      TakenInOrder (m.withTables tables) upper ((m.withTables tables).family name) root source j
        others := by
  induction turns generalizing i j with
  | nil => exact ⟨[], rfl, takenInOrder_nil⟩
  | cons turn turns ih =>
    obtain ⟨hTurn, hRest⟩ := takenInOrder_cons.mp h
    -- the turn is there on the other side too, and leaves instances alike
    obtain ⟨other, hSame, hOther⟩ := takenOn_alike tables hIgnores hLevels hInstance hTurn
    obtain ⟨others, hSames, hOthers⟩ := ih (take_alike hSame hInstance) hRest
    exact ⟨other :: others, congrArg₂ List.cons hSame hSames,
      takenInOrder_cons.mpr ⟨hOther, hOthers⟩⟩

end

/-- The turns are those that a mapping has taken up to some point of its run. -/
structure Taken (m : Mapper) (lower : Level) (name root : String) (source : Option (Dict Value))
    (turns : List Turn) : Prop where
  constructible : (m.family name).constructible = true
  discovered : ∃ fields, (m.family name).discover name = .ok fields
  entries : turns.map Turn.entry <+: (m.family name).shaped ++ (m.family name).undecided
  inOrder : TakenInOrder m lower (m.family name) root source (.blank name) turns

theorem Taken.alike (hIgnores : m.IgnoresOrder) (hLevels : lower.Alike upper)
    (hTables : ∀ name, SectionType.SameFields (m.family name).fields (tables name))
    {turns : List Turn} (h : Taken m lower name root source turns) :
    ∃ others : List Turn, others.map Turn.arranged = turns.map Turn.arranged ∧
      Taken (m.withTables tables) upper name root source others := by
  obtain ⟨others, hSame, hOthers⟩ :=
    takenInOrder_alike tables hIgnores hLevels rfl h.inOrder
  refine ⟨others, hSame, h.constructible, ?_, ?_, hOthers⟩
  · -- discovery succeeds there as well
    obtain ⟨fields, hFields⟩ := h.discovered
    rcases SectionType.discover_alike name (hTables name) with
      ⟨e, hError, -⟩ | ⟨_, found, -, hFound, -⟩
    · exact absurd (hFields.symm.trans hError) nofun
    · exact ⟨found, hFound⟩
  · -- the turns are about the same fields, and these about the same table
    have hEntries : others.map Turn.entry = turns.map Turn.entry := by
      have hMap := congrArg (List.map Turn.entry) hSame
      rw [List.map_map, List.map_map] at hMap
      exact hMap
    have hShaped : ((m.withTables tables).family name).shaped = (m.family name).shaped :=
      SectionType.shaped_withFields (hTables name)
    have hUndecided : ((m.withTables tables).family name).undecided = (m.family name).undecided :=
      SectionType.undecided_withFields (hTables name)
    rw [hEntries, hShaped, hUndecided]
    exact h.entries

end Mapping

namespace Mapper

theorem withTables_withTables (m : Mapper) (tables : String → List Field) :
    (m.withTables tables).withTables (fun name => (m.family name).fields) = m := rfl

theorem IgnoresOrder.withTables {m : Mapper} (h : m.IgnoresOrder)
    (tables : String → List Field) : (m.withTables tables).IgnoresOrder :=
  ⟨h.decide, h.defaultFor, h.afterParsing, h.converter⟩

/-- Whatever one mapper does to map a section, the other one does as well. -/
structure Follows (m m' : Mapper) (depth : Nat) (name root : String)
    (source : Option (Dict Value)) : Prop where
  /-- The mappings end alike: with the same error, or with the same instance but for the order of
  declarations that it records. -/
  ends : Run.Alike Instance.arranged
    (Mapping.mapSection m (Mapping.level m depth) name root source)
    (Mapping.mapSection m' (Mapping.level m' depth) name root source)
  /-- Until then they take the same turns with the same values, and where the one fails over the
  next entry the other one does so too, with the same error. -/
  turns : ∀ turns, Mapping.Taken m (Mapping.level m depth) name root source turns →
    ∃ others : List Turn, others.map Turn.arranged = turns.map Turn.arranged ∧
      Mapping.Taken m' (Mapping.level m' depth) name root source others ∧
      ∀ entry e,
        (Mapping.mapLocatedField m (Mapping.level m depth) (m.family name) root source
          ((Instance.blank name).replay turns) entry).Fails e →
        (Mapping.mapLocatedField m' (Mapping.level m' depth) (m'.family name) root source
          ((Instance.blank name).replay others) entry).Fails e

variable {m : Mapper} {tables : String → List Field}

theorem follows_withTables (hIgnores : m.IgnoresOrder)
    (hTables : ∀ name, SectionType.SameFields (m.family name).fields (tables name)) (depth : Nat)
    (name root : String) (source : Option (Dict Value)) :
    m.Follows (m.withTables tables) depth name root source := by
  have hLevels := Mapping.level_alike hIgnores hTables depth
  refine ⟨Mapping.mapSection_alike hIgnores hLevels hTables name root source, fun turns hTaken => ?_⟩
  obtain ⟨others, hSame, hOthers⟩ := hTaken.alike hIgnores hLevels hTables
  refine ⟨others, hSame, hOthers, fun entry e hFails => ?_⟩
  -- what was assigned up to the failing field is alike
  have hReplayed : ((Instance.blank name).replay turns).arranged =
      ((Instance.blank name).replay others).arranged := Mapping.replay_alike hSame rfl
  exact (Mapping.mapLocatedField_alike hIgnores hLevels hReplayed entry).there.fails e hFails

/-- **Where undecided fields are declared does not matter.** If the tables of a family have
the same undecided fields and the same others, each in the same order, then mapping a section of
the one family and mapping it with the tables of the other makes the same assignments in the same
order and ends with the same error or the same instance. The hooks and converters must not look at
the order of declarations either. -/
theorem mapping_eq_of_sameFields (hIgnores : m.IgnoresOrder)
    (hTables : ∀ name, SectionType.SameFields (m.family name).fields (tables name)) (depth : Nat)
    (name : String) :
    (∀ root source, m.Follows (m.withTables tables) depth name root source ∧
      (m.withTables tables).Follows m depth name root source) ∧
    ∀ root : Option String, Run.Alike Instance.arranged (m.mapSection depth name root)
      ((m.withTables tables).mapSection depth name root) := by
  refine ⟨fun root source => ⟨follows_withTables hIgnores hTables depth name root source, ?_⟩,
    fun root => ?_⟩
  · -- back again, with the first tables in place of the second
    have hBack : (m.withTables tables).Follows
        ((m.withTables tables).withTables fun name => (m.family name).fields) depth name root
        source :=
      follows_withTables (hIgnores.withTables tables) (fun name => (hTables name).symm) depth name
        root source
    rwa [withTables_withTables] at hBack
  · exact ((Mapping.level_alike hIgnores hTables depth).mapSection name _ none).mapError _

/-- The server, with the mode that depends on its port declared last. -/
def modeLast : List Field :=
  (Mapping.serverFamily "server").fields.filter (fun field => field.shape ≠ .any) ++
    [.ofType "mode" .any]

theorem serverMapper_ignoresOrder : Mapping.serverMapper.IgnoresOrder where
  decide := by
    intro name i j field h
    have hPort : (i.value? "port").map Typed.arranged = (j.value? "port").map Typed.arranged := by
      rw [← Instance.value?_arranged, ← Instance.value?_arranged, h]
    show (i.value? "port").map (fun _ => Shape.scalar .long) = (j.value? "port").map _
    -- the mode depends on whether there is a port
    cases hLeft : i.value? "port" <;> cases hRight : j.value? "port" <;>
      simp_all
  defaultFor := fun _ _ _ _ _ _ => rfl
  afterParsing := fun _ _ _ _ _ h _ => congrArg Except.ok h
  converter := nofun

/-- The server is the same with its mode declared first or last, but for the record of that. -/
theorem server_modeLast :
    Mapping.serverMapper.IgnoresOrder ∧
      (∀ name, SectionType.SameFields (Mapping.serverMapper.family name).fields modeLast) ∧
      Mapping.serverMapper.Follows (Mapping.serverMapper.withTables fun _ => modeLast) 2 "server"
        "" none ∧
      ((Mapping.serverMapper.withTables fun _ => modeLast).mapSection 3 "server" none).Returns
        { Mapping.loggedServer with completed := some (FieldSpec.arrange
            (Mapping.serverFamily "server").specs) } := by
  have hTables : ∀ name, SectionType.SameFields (Mapping.serverMapper.family name).fields modeLast :=
    fun _ => ⟨rfl, rfl⟩
  exact ⟨serverMapper_ignoresOrder, hTables,
    ((mapping_eq_of_sameFields serverMapper_ignoresOrder hTables 2 "server").1 "" none).1, rfl⟩

end Mapper

end TypedConfig
