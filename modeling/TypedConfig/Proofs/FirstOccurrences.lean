import TypedConfig.Proofs.Equality
import TypedConfig.Proofs.Sorting
import TypedConfig.Proofs.Typing

/-!
# What sets keep

A set is read as a list from which all but the first of equal elements are dropped, once when a
deferred value is read as scalars and once when the engine interprets a value. What is kept is
then turned into a set of a native type. The types of keys turn different scalars into different
values, so nothing is lost there.

Main results:

* `NativeType.beq_of_ofScalar` — equal values of a key type stem from equal scalars.
* `lossless_sortItems` — elements that stay different are all there in a sorted set.
* `sets_keep_first_occurrences` — what sets keep, read late or interpreted at once, and what
  becomes of it in a native type.
-/

namespace TypedConfig

/-! ## Values of key types -/

namespace NativeType

/-- Numbers that fit into 32 bits are not changed by that. -/
theorem narrow?_inj {m n : Long} {k : Int32} (hLeft : narrow? m = some k)
    (hRight : narrow? n = some k) : m = n := by
  -- what is in range has the same integer in 32 bits
  have hInt : ∀ {n : Long}, narrow? n = some k → n.toInt = k.toInt := by
    intro n h
    unfold narrow? at h
    split at h
    · next hRange =>
      obtain rfl := Option.some.inj h
      exact (Int32.toInt_ofInt_of_le hRange.1 (Int.lt_add_one_of_le hRange.2)).symm
    · cases h
  exact Int64.toInt_inj.mp ((hInt hLeft).trans (hInt hRight).symm)

theorem ofScalar_int_eq_ok_iff {s : Scalar} {n : Native} :
    ofScalar .int s = .ok n ↔ ∃ m k, s = .long m ∧ narrow? m = some k ∧ n = .int k := by
  cases s with
  | long m =>
    cases hNarrow : narrow? m with
    | some k => simp [ofScalar, hNarrow, eq_comm]
    | none => simp [ofScalar, hNarrow]
  | _ => simp [ofScalar]

/-- Different scalars become different values of a key type. -/
theorem ofScalar_inj {type : NativeType} (hKey : type.IsKey) {a b : Scalar} {n : Native}
    (hLeft : type.ofScalar a = .ok n) (hRight : type.ofScalar b = .ok n) : a = b := by
  cases type with
  | string | long | boolean =>
    -- these types take the scalar of their kind as it is
    cases a <;> cases hLeft
    cases b <;> cases hRight
    rfl
  | int =>
    -- a narrowed number comes from one number only
    obtain ⟨m, k, rfl, hNarrow, rfl⟩ := ofScalar_int_eq_ok_iff.mp hLeft
    obtain ⟨m', k', rfl, hNarrow', hNative⟩ := ofScalar_int_eq_ok_iff.mp hRight
    obtain rfl := Native.int.inj hNative
    rw [narrow?_inj hNarrow hNarrow']
  | double | single => exact absurd hKey (by decide)

theorem kind_ne_double_of_ofScalar {type : NativeType} (hKey : type.IsKey) {s : Scalar}
    {n : Native} (h : type.ofScalar s = .ok n) : s.kind ≠ .double := by
  cases s with
  | double x =>
    cases type with
    | double | single => exact absurd hKey (by decide)
    | _ => cases h
  | _ => nofun

/-- **Equal values of a key type stem from equal scalars.** -/
theorem beq_of_ofScalar {type : NativeType} (hKey : type.IsKey) {a b : Scalar} {n : Native}
    (hLeft : type.ofScalar a = .ok n) (hRight : type.ofScalar b = .ok n) : a == b := by
  obtain rfl := ofScalar_inj hKey hLeft hRight
  exact Scalar.beq_self (kind_ne_double_of_ofScalar hKey hLeft)

/-- The wider ones of the key types hold all scalars of their kind. -/
theorem exists_ofScalar {type : NativeType} (hKey : type.IsKey) (hWide : type ≠ .int) {s : Scalar}
    (hKind : s.kind = type.kind) : ∃ n, type.ofScalar s = .ok n := by
  cases type with
  | string | long | boolean =>
    cases s <;> cases hKind
    exact ⟨_, rfl⟩
  | int => exact absurd rfl hWide
  | double | single => exact absurd hKey (by decide)

end NativeType

/-- A scalar as a value of the type of a field. -/
theorem FieldType.convert_native_eq_ok_iff {type : NativeType} {r : Resolved} {t : Typed} :
    (native type).convert r = .ok t ↔
      ∃ s n, r = .scalar s ∧ type.ofScalar s = .ok n ∧ t = .native n := by
  cases r with
  | scalar s =>
    -- the conversion is that of the scalar
    show (type.ofScalar s).map Typed.native = .ok t ↔ _
    rw [map_eq_ok_iff]
    simp [eq_comm]
  | _ => simp [convert]

/-! ## Sets of converted elements -/

/-- The conversion of what was kept to a set loses nothing: the set is made of what every kept
element is converted to, and where one of them cannot be converted there is no set. -/
structure Lossless {α β γ : Type} (convert : α → Outcome β) (kept : List α) (make : List β → γ)
    (converted : Outcome γ) : Prop where
  ok : ∀ results, collect convert kept = .ok results →
    ∃ items, converted = .ok (make items) ∧ items.Perm results
  error : ∀ e, collect convert kept = .error e → converted = .error e

section
variable {α β γ : Type} [BEq α] {convert : α → Outcome β} {kept : List α}

/-- Elements that are different before the conversion are different after it. -/
theorem nodup_of_collect (hEqual : ∀ a a' b, convert a = .ok b → convert a' = .ok b → a == a')
    (hKept : kept.Pairwise fun a b => (a == b) = false) {results : List β}
    (h : collect convert kept = .ok results) : results.Nodup := by
  rw [collect_eq_ok_iff_forall₂] at h
  induction h with
  | nil => exact List.nodup_nil
  | cons hItem hRest ih =>
    obtain ⟨hFirst, hKept⟩ := List.pairwise_cons.mp hKept
    refine List.nodup_cons.mpr ⟨fun hMem => ?_, ih hKept⟩
    -- a second one of the same outcome would come from an equal element
    obtain ⟨other, hOther, hSame⟩ :=
      exists_of_mem_collect (collect_eq_ok_iff_forall₂.mpr hRest) hMem
    have hDiffer := hFirst other hOther
    rw [hEqual _ _ _ hItem hSame] at hDiffer
    cases hDiffer

/-- **Elements that stay different are all there in a sorted set.** -/
theorem lossless_sortItems {order : β → β → Ordering} {P : β → Prop} (hOrder : StrictOn order P)
    (hOutcome : ∀ a b, convert a = .ok b → P b)
    (hEqual : ∀ a a' b, convert a = .ok b → convert a' = .ok b → a == a')
    (hKept : kept.Pairwise fun a b => (a == b) = false) (make : List β → γ) :
    Lossless convert kept make
      ((collect convert kept).map fun results => make (sortItems order results)) where
  ok results h := by
    -- the results are in the domain on which the order is strict
    have hItems : ∀ b ∈ results, P b := fun b hb => by
      obtain ⟨a, -, hItem⟩ := exists_of_mem_collect h hb
      exact hOutcome a b hItem
    rw [h]
    exact ⟨_, rfl, sortItems_perm hOrder hItems (nodup_of_collect hEqual hKept h)⟩
  error e h := by
    rw [h]
    rfl

end

/-! ## Reading scalars -/

namespace Deferred

variable {d : Deferred} {kind : ScalarKind} {env : Environment}

theorem kind_of_itemScalars {item : Value} {scalars : List Scalar}
    (h : d.itemScalars kind env item = .ok scalars) : ∀ s ∈ scalars, s.kind = kind := by
  unfold itemScalars at h
  split at h
  · cases h
  · split at h
    · -- an item that stands for several values
      intro s hMem
      obtain ⟨v, -, hRead⟩ := exists_of_mem_collect h hMem
      exact kind_of_interpret hRead
    · -- an item that stands for itself
      split at h
      · cases h
      · next s hRead =>
        obtain rfl := Except.ok.inj h
        exact List.forall_mem_singleton.mpr (kind_of_interpret hRead)

/-- A list has scalars of its kind only. -/
theorem kind_of_list {scalars : List Scalar} (h : d.list kind env = .ok scalars) :
    ∀ s ∈ scalars, s.kind = kind := by
  unfold list at h
  split at h
  · cases h
  · split at h
    · -- a single value is a list of one
      split at h
      · cases h
      · next s hRead =>
        obtain rfl := Except.ok.inj h
        exact List.forall_mem_singleton.mpr (kind_of_interpret hRead)
    · -- each item gives scalars of the kind, and they are put together
      split at h
      · cases h
      · next groups hGroups =>
        obtain rfl := Except.ok.inj h
        intro s hMem
        obtain ⟨group, hGroup, hMem⟩ := List.mem_flatten.mp hMem
        obtain ⟨item, -, hItem⟩ := exists_of_mem_collect hGroups hGroup
        exact kind_of_itemScalars hItem s hMem

theorem set_of_list {scalars : List Scalar} (h : d.list kind env = .ok scalars) :
    d.set kind env = .ok (keepFirst (· == ·) scalars) := by
  rw [set, h]
  rfl

/-- A set of native values is made of the kept scalars. -/
theorem asSet_of_set {type : NativeType} {scalars : List Scalar}
    (h : d.set type.kind env = .ok scalars) :
    d.asSet type env =
      (collect type.ofScalar scalars).map fun items => sortItems Native.compare items := by
  rw [asSet, h]
  dsimp only
  cases collect type.ofScalar scalars <;> rfl

end Deferred

/-! ## Interpreting sets -/

namespace Mapping

variable {m : Mapper} {depth : Nat} {v : Value} {element : Shape}

/-- Where a list is interpreted, so is a set, from the same items. -/
theorem interpret_set_of_list {r : Resolved}
    (h : ((level m depth).interpret v (.list element)).Returns r) :
    ∃ items, r = .list items ∧
      ((level m depth).interpret v (.set element)).Returns (.set (keepFirst (· == ·) items)) := by
  cases depth with
  -- no level is left to interpret anything
  | zero => exact absurd h Run.not_returns_tooDeep
  | succ depth =>
    obtain ⟨items, hItems, h⟩ := Run.returns_bind.mp h
    refine ⟨items, (Run.returns_pure.mp h).symm, ?_⟩
    exact Run.returns_bind.mpr ⟨items, hItems, Run.returns_pure.mpr rfl⟩

/-- Without converters a list of scalars has scalars of its kind only. -/
theorem kind_of_interpret_list (hConverters : m.converters = none) {kind : ScalarKind}
    {items : List Resolved}
    (h : ((level m depth).interpret v (.list (.scalar kind))).Returns (.list items)) :
    ∀ r ∈ items, ∃ s, r = .scalar s ∧ s.kind = kind := by
  intro r hMem
  -- by soundness the items have the shape of the element
  have hShape := (level_sound hConverters depth).interpret h
  cases hShape with
  | list hItems =>
    cases hItems r hMem with
    | scalar s => exact ⟨s, rfl, rfl⟩

end Mapping

namespace FieldType

/-- A set of a key type is made of the kept elements. -/
theorem lossless_convert_set {type : NativeType} (hKey : type.IsKey) {kept : List Resolved}
    (hKept : kept.Pairwise fun a b => (a == b) = false) :
    Lossless (native type).convert kept Typed.set ((set (.native type)).convert (.set kept)) := by
  have hOrder := (Native.compare_strictOn hKey).image Typed.compare_native
  show Lossless _ kept Typed.set
    ((collect (native type).convert kept).map fun items => .set (sortItems Typed.compare items))
  refine lossless_sortItems hOrder ?_ ?_ hKept Typed.set
  · -- what converts is a value of the key type
    intro r t hConvert
    obtain ⟨s, n, -, hNative, rfl⟩ := convert_native_eq_ok_iff.mp hConvert
    exact ⟨n, NativeType.type_of_ofScalar hNative, rfl⟩
  · -- equal results come from equal elements
    intro r r' t hLeft hRight
    obtain ⟨s, n, rfl, hNative, rfl⟩ := convert_native_eq_ok_iff.mp hLeft
    obtain ⟨s', n', rfl, hNative', hTyped⟩ := convert_native_eq_ok_iff.mp hRight
    obtain rfl := Typed.native.inj hTyped
    exact NativeType.beq_of_ofScalar hKey hNative hNative'

end FieldType

/-! ## Both sets -/

/-- **Sets keep exactly the first occurrences**, whether a deferred value is read or the engine
interprets one. A set of a key type loses nothing more, and but for numbers that are too long for
32 bits nothing keeps it from being made. -/
theorem sets_keep_first_occurrences :
    (∀ (d : Deferred) (kind : ScalarKind) (env : Environment) (items : List Scalar),
      d.list kind env = .ok items →
        ∃ kept marked, d.set kind env = .ok kept ∧ KeepsFirst items kept marked ∧
          ∀ type : NativeType, type.IsKey → type.kind = kind →
            Lossless type.ofScalar kept id (d.asSet type env) ∧
            (type ≠ .int → ∃ natives, collect type.ofScalar kept = .ok natives)) ∧
    ∀ (m : Mapper) (depth : Nat) (v : Value) (element : Shape) (r : Resolved),
      ((Mapping.level m depth).interpret v (.list element)).Returns r →
        ∃ items kept marked, r = .list items ∧
          ((Mapping.level m depth).interpret v (.set element)).Returns (.set kept) ∧
          KeepsFirst items kept marked ∧
          ∀ type : NativeType, type.IsKey →
            Lossless (FieldType.native type).convert kept Typed.set
              ((FieldType.set (.native type)).convert (.set kept)) ∧
            (m.converters = none → element = .scalar type.kind → type ≠ .int →
              ∃ natives, collect (FieldType.native type).convert kept = .ok natives) := by
  constructor
  · -- a deferred value, read as a list and as a set
    intro d kind env items hList
    obtain ⟨marked, hKeeps⟩ := keepsFirst_keepFirst items
    have hSet := Deferred.set_of_list hList
    refine ⟨_, marked, hSet, hKeeps, ?_⟩
    rintro type hKey rfl
    constructor
    · -- made into a set of the key type it only changes its order
      rw [Deferred.asSet_of_set hSet]
      exact lossless_sortItems (Native.compare_strictOn hKey)
        (fun _ _ hNative => NativeType.type_of_ofScalar hNative)
        (fun _ _ _ hLeft hRight => NativeType.beq_of_ofScalar hKey hLeft hRight)
        (hKeeps.distinct.imp And.left) id
    · -- only 32 bits can be too few
      intro hWide
      refine exists_collect fun s hMem => NativeType.exists_ofScalar hKey hWide ?_
      exact Deferred.kind_of_list hList s (mem_of_mem_keepFirst hMem)
  · -- a value the engine interprets
    intro m depth v element r hList
    obtain ⟨items, rfl, hSet⟩ := Mapping.interpret_set_of_list hList
    obtain ⟨marked, hKeeps⟩ := keepsFirst_keepFirst items
    refine ⟨items, _, marked, rfl, hSet, hKeeps, fun type hKey => ⟨?_, ?_⟩⟩
    · exact FieldType.lossless_convert_set hKey (hKeeps.distinct.imp And.left)
    · -- without converters the elements are scalars, which all fit
      rintro hConverters rfl hWide
      refine exists_collect fun r hMem => ?_
      obtain ⟨s, rfl, hKind⟩ :=
        Mapping.kind_of_interpret_list hConverters hList r (mem_of_mem_keepFirst hMem)
      obtain ⟨n, hNative⟩ := NativeType.exists_ofScalar hKey hWide hKind
      exact ⟨.native n, FieldType.convert_native_eq_ok_iff.mpr ⟨s, n, rfl, hNative, rfl⟩⟩

/-- Readings: the first three are the same number. -/
def readings : Deferred :=
  ⟨.list [.string "1", .long 1, .list [.string " 1", .long 2]], none⟩

def readNumbers : List Scalar := [.long 1, .long 1, .long 1, .long 2]

def keptNumbers : List Scalar := [.long 1, .long 2]

def readingMapper : Mapper :=
  ⟨fun _ => .plain, .empty, .interpreter, none, []⟩

/-- Interpreting a list or a set of words. -/
def interpretWords (shape : Shape → Shape) : Run Resolved :=
  (Mapping.level readingMapper 2).interpret (.list [.string "b", .string "a", .string "b"])
    (shape (.scalar .string))

def keptWords : List Resolved := [.ofText "b", .ofText "a"]

/-- Two of the readings are kept, and two of the words. -/
theorem readings_kept :
    (readings.list .long [] = .ok readNumbers ∧
      ∃ marked, readings.set .long [] = .ok keptNumbers ∧
        KeepsFirst readNumbers keptNumbers marked ∧
        ∃ natives, readings.asSet .int [] = .ok natives ∧ natives.Perm [.int 1, .int 2]) ∧
    (interpretWords .list).Returns (.list [.ofText "b", .ofText "a", .ofText "b"]) ∧
      ∃ marked, (interpretWords .set).Returns (.set keptWords) ∧
        KeepsFirst [.ofText "b", .ofText "a", .ofText "b"] keptWords marked ∧
        ∃ natives, (FieldType.set (.native .string)).convert (.set keptWords) =
            .ok (.set natives) ∧
          natives.Perm [.native (.string "b"), .native (.string "a")] := by
  constructor
  · have hList : readings.list .long [] = .ok readNumbers := rfl
    obtain ⟨kept, marked, hSet, hKeeps, hType⟩ :=
      sets_keep_first_occurrences.1 readings .long [] readNumbers hList
    -- the kept numbers are what the set read computes
    obtain rfl : keptNumbers = kept := Except.ok.inj hSet
    exact ⟨hList, marked, hSet, hKeeps, (hType .int (by decide) rfl).1.ok _ rfl⟩
  · have hList : (interpretWords .list).Returns
        (.list [.ofText "b", .ofText "a", .ofText "b"]) := rfl
    obtain ⟨items, kept, marked, hItems, hSet, hKeeps, hType⟩ :=
      sets_keep_first_occurrences.2 readingMapper 2 _ (.scalar .string) _ hList
    obtain rfl := Resolved.list.inj hItems
    have hKept : (interpretWords .set).Returns (.set keptWords) := rfl
    -- a run has one outcome only
    obtain rfl : keptWords = kept := Resolved.set.inj (hKept.unique hSet)
    exact ⟨hList, marked, hSet, hKeeps, (hType .string (by decide)).1.ok _ rfl⟩

end TypedConfig
