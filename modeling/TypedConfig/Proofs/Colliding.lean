import TypedConfig.Proofs.Dict
import TypedConfig.Proofs.Later
import Mathlib.Data.Prod.Basic

/-!
# Keys that collide

Different keys of a map in the configuration may be one key once they are read: `1`, `01` and
a `1` with a blank in front are all the same number. A map is in ascending order of its keys
as texts, and is read in this order, by a deferred read as well as for a field. Each of the
two then puts the entries into a typed map one after the other, so of entries that collide
the last one in this order stays, and nothing else is lost.

The two differ in how they get to the entries. A deferred read makes scalars of all of them
before it turns the first into native values; the engine interprets key and value as elements,
of any type in case of the value. But what they end with is the same: entries that are read one
by one, and sorted. `ReadsMap.of_sorted` goes on from there.

Main results:

* `isLast_iff_lastRead` — the last of the entries that were read is the last in the configuration.
* `ReadsMap.of_sorted` — entries that are read one by one and sorted make a typed map.
* `Deferred.asMap_eq_ok_iff` — a deferred read of a map.
* `Mapping.mapLocatedField_map_returns_iff` — a field that is a map.
* `Mapping.typed_maps_keep_last` — both keep the last of colliding entries, and lose nothing else.
-/

namespace TypedConfig

section
variable {α β γ : Type _} {R : α → β → Prop} {S : β → γ → Prop}

theorem exists_forall₂_iff {as : List α} :
    (∃ bs, List.Forall₂ R as bs) ↔ ∀ a ∈ as, ∃ b, R a b := by
  induction as with
  | nil => exact iff_of_true ⟨[], .nil⟩ nofun
  | cons a rest ih =>
    rw [List.forall_mem_cons, ← ih]
    constructor
    · rintro ⟨_, _ | ⟨hFirst, hRest⟩⟩
      exact ⟨⟨_, hFirst⟩, _, hRest⟩
    · rintro ⟨⟨b, hFirst⟩, bs, hRest⟩
      exact ⟨b :: bs, .cons hFirst hRest⟩

/-- Two steps made on whole lists are two steps made on each item. -/
theorem exists_forall₂_and_iff {as : List α} {cs : List γ} :
    (∃ bs, List.Forall₂ R as bs ∧ List.Forall₂ S bs cs) ↔
      List.Forall₂ (fun a c => ∃ b, R a b ∧ S b c) as cs := by
  constructor
  · -- the items in between are forgotten, pair by pair
    rintro ⟨bs, hFirst, hSecond⟩
    induction hFirst generalizing cs with
    | nil =>
      cases hSecond
      exact .nil
    | cons hA _ ih =>
      obtain _ | ⟨hB, hSecond⟩ := hSecond
      exact .cons ⟨_, hA, hB⟩ (ih hSecond)
  · -- the items in between are collected on the way back
    intro h
    induction h with
    | nil => exact ⟨[], .nil, .nil⟩
    | cons hStep _ ih =>
      obtain ⟨b, hA, hB⟩ := hStep
      obtain ⟨bs, hFirst, hSecond⟩ := ih
      exact ⟨b :: bs, .cons hA hFirst, .cons hB hSecond⟩

end

/-! ## Entries that are read -/

section
variable {κ β : Type _} {Key : Value → κ → Prop} {Val : Value → β → Prop} {source : Dict Value}
  {pairs : List (κ × β)} {k : κ} {t : β}

/-- The key and the value of the entry are read as those of the pair. -/
def EntryRead (Key : Value → κ → Prop) (Val : Value → β → Prop) (entry : String × Value)
    (pair : κ × β) : Prop :=
  Key (.string entry.1) pair.1 ∧ Val entry.2 pair.2

/-- Of the entries whose key is read as `k`, the last in ascending order of the keys has a value
that is read as `t`. -/
def LastRead (Key : Value → κ → Prop) (Val : Value → β → Prop) (source : Dict Value) (k : κ)
    (t : β) : Prop :=
  ∃ entry ∈ source, EntryRead Key Val entry (k, t) ∧
    ∀ other ∈ source, entry.1 < other.1 → ¬Key (.string other.1) k

/-- In ascending order, the first entry counts if its key does not come again. -/
theorem lastRead_cons_iff {first : String × Value} (hSource : Dict.Ordered (first :: source)) :
    LastRead Key Val (first :: source) k t ↔
      EntryRead Key Val first (k, t) ∧ (∀ other ∈ source, ¬Key (.string other.1) k) ∨
        LastRead Key Val source k t := by
  have hLess : ∀ other ∈ source, first.1 < other.1 := (List.pairwise_cons.mp hSource).1
  -- keys are apart, so the first entry comes before all the others, but not before itself
  have hFirst : (∀ other ∈ first :: source, first.1 < other.1 → ¬Key (.string other.1) k) ↔
      ∀ other ∈ source, ¬Key (.string other.1) k := by
    rw [List.forall_mem_cons, and_iff_right fun hSelf => absurd hSelf (String.lt_irrefl _)]
    exact forall₂_congr fun other hOther => imp_iff_right (hLess other hOther)
  rw [LastRead, List.exists_mem_cons_iff, hFirst]
  -- to the others the first entry makes no difference, as it comes before them
  refine or_congr_right (exists_congr fun entry => and_congr_right fun hEntry =>
    and_congr_right fun _ => ?_)
  rw [List.forall_mem_cons, and_iff_right]
  exact fun hBefore => absurd (String.lt_trans hBefore (hLess entry hEntry)) (String.lt_irrefl _)

section
variable (hKey : Relator.RightUnique Key) (hVal : Relator.RightUnique Val)
  (hPairs : List.Forall₂ (EntryRead Key Val) source pairs)
include hKey hPairs

theorem exists_key_iff :
    (∃ pair ∈ pairs, pair.1 = k) ↔ ∃ entry ∈ source, Key (.string entry.1) k := by
  induction hPairs with
  | nil => exact iff_of_false (fun ⟨_, hMem, _⟩ => nomatch hMem) fun ⟨_, hMem, _⟩ => nomatch hMem
  | cons hFirst _ ih =>
    rw [List.exists_mem_cons_iff, List.exists_mem_cons_iff, ih]
    exact or_congr_left ⟨fun hSame => hSame ▸ hFirst.1, hKey hFirst.1⟩

include hVal in
/-- **The last of the entries that were read is the last in the configuration.** -/
theorem isLast_iff_lastRead (hSource : Dict.Ordered source) :
    IsLast pairs (k, t) ↔ LastRead Key Val source k t := by
  induction hPairs with
  | nil => exact iff_of_false not_isLast_nil fun ⟨_, hMem, _⟩ => nomatch hMem
  | cons hFirst hRest ih =>
    rw [isLast_cons_iff, lastRead_cons_iff hSource, ih (List.pairwise_cons.mp hSource).2]
    refine or_congr_left (and_congr ?_ ?_)
    · -- the pair that was read first is the one in question: keys and values are read in one way
      constructor
      · rintro rfl
        exact hFirst
      · rintro ⟨hSameKey, hSameValue⟩
        exact Prod.ext (hKey hSameKey hFirst.1) (hVal hSameValue hFirst.2)
    · -- a key comes again among the pairs just when it does among the entries
      have hKeys := not_congr (exists_key_iff (k := k) hKey hRest)
      push Not at hKeys
      exact hKeys

end

/-- What holds of every key that can be read holds of those that were. -/
theorem key_of_mem_pairs {P : κ → Prop} (hProper : ∀ v k, Key v k → P k)
    (hPairs : List.Forall₂ (EntryRead Key Val) source pairs) : ∀ pair ∈ pairs, P pair.1 := by
  induction hPairs with
  | nil => exact fun _ hMem => nomatch hMem
  | cons hFirst _ ih => exact List.forall_mem_cons.mpr ⟨hProper _ _ hFirst.1, ih⟩

end

/-! ## Typed maps -/

namespace Deferred

variable {d : Deferred} {env : Environment}

/-- A value inside of a deferred one, as deferred as that. -/
def inside (d : Deferred) (v : Value) : Deferred :=
  { d with value := v }

/-- A value inside of the deferred one is read as a value of the type. -/
def ReadsAs (d : Deferred) (type : NativeType) (env : Environment) (v : Value) (n : Native) :
    Prop :=
  (d.inside v).asScalar type env = .ok n

theorem readsAs_iff {type : NativeType} {v : Value} {n : Native} :
    d.ReadsAs type env v n ↔
      ∃ s, d.interpret type.kind env v = .ok s ∧ type.ofScalar s = .ok n := by
  -- inside the value a scalar read has nothing to evaluate first
  have hRead : (d.inside v).asScalar type env =
      d.interpret type.kind env v >>= type.ofScalar := by
    have hScalar : (d.inside v).scalar type.kind env = d.interpret type.kind env v := rfl
    rw [asScalar, hScalar]
    cases d.interpret type.kind env v <;> rfl
  rw [ReadsAs, hRead, bind_eq_ok_iff]

theorem readsAs_rightUnique (type : NativeType) : Relator.RightUnique (d.ReadsAs type env) :=
  fun _ _ _ h h' => Except.ok.inj (h.symm.trans h')

theorem ReadsAs.type {type : NativeType} {v : Value} {n : Native} (h : d.ReadsAs type env v n) :
    n.type = type := by
  obtain ⟨s, -, hNative⟩ := readsAs_iff.mp h
  exact NativeType.type_of_ofScalar hNative

end Deferred

/-- The reader makes typed maps of a map in the configuration. It succeeds exactly when every key
and every value can be read. The keys of the result are in strictly ascending order, they are those
that are read, and each has the value of the last entry whose key is read as it. If the keys are
texts, there is one entry for every entry in the configuration. -/
structure ReadsMap {β : Type _} (d : Deferred) (key : NativeType) (env : Environment)
    (Val : Value → β → Prop) (source : Dict Value) (Reads : List (Native × β) → Prop) : Prop where
  succeeds_iff : (∃ result, Reads result) ↔
    ∀ entry ∈ source, (∃ k, d.ReadsAs key env (.string entry.1) k) ∧ ∃ t, Val entry.2 t
  ascending : ∀ result, Reads result → Ascending Native.compare result
  keys : ∀ result, Reads result → ∀ k,
    k ∈ result.map Prod.fst ↔ ∃ entry ∈ source, d.ReadsAs key env (.string entry.1) k
  entries : ∀ result, Reads result → ∀ k t,
    (k, t) ∈ result ↔ LastRead (d.ReadsAs key env) Val source k t
  texts : key = .string → ∀ result, Reads result →
    List.Forall₂ (fun entry pair => pair.1 = .string entry.1 ∧ Val entry.2 pair.2) source result

/-- Texts are read as they stand, so they are as many as before and in the same order. -/
theorem sortEntries_of_texts {β : Type _} {d : Deferred} {env : Environment}
    {Val : Value → β → Prop} {source : Dict Value} {pairs : List (Native × β)}
    (hSource : Dict.Ordered source)
    (hPairs : List.Forall₂ (EntryRead (d.ReadsAs .string env) Val) source pairs) :
    sortEntries Native.compare pairs = pairs := by
  -- the text is the key, so the keys are those of the source
  have hKeys : source.map (fun entry => Native.string entry.1) = pairs.map Prod.fst := by
    rw [← List.forall₂_eq_eq_eq, List.forall₂_map_left_iff, List.forall₂_map_right_iff]
    exact hPairs.imp fun entry pair hRead => Except.ok.inj hRead.1
  -- and those are in order to begin with
  have hAscending : (pairs.map Prod.fst).Pairwise fun a b => Native.compare a b = .lt := by
    rw [← hKeys, List.pairwise_map]
    exact hSource.imp fun hLess => compareOfLessAndEq_eq_lt.mpr hLess
  exact sortEntries_of_ascending (Native.compare_strictOn (by decide))
    (key_of_mem_pairs (fun _ _ hRead => hRead.type) hPairs) (List.pairwise_map.mp hAscending)

/-- **Entries that are read one by one and sorted make a typed map.** -/
theorem ReadsMap.of_sorted {β : Type _} {d : Deferred} {key : NativeType} (hKey : key.IsKey)
    {env : Environment} {Val : Value → β → Prop} (hVal : Relator.RightUnique Val)
    {source : Dict Value} (hSource : Dict.Ordered source) {Reads : List (Native × β) → Prop}
    (hReads : ∀ result, Reads result ↔
      ∃ pairs, List.Forall₂ (EntryRead (d.ReadsAs key env) Val) source pairs ∧
        sortEntries Native.compare pairs = result) :
    ReadsMap d key env Val source Reads := by
  have hOrder := Native.compare_strictOn hKey
  have hUnique : Relator.RightUnique (d.ReadsAs key env) := Deferred.readsAs_rightUnique key
  -- sorting tells keys of one type apart, and all of these have the type that was asked for
  have hTypes : ∀ {pairs}, List.Forall₂ (EntryRead (d.ReadsAs key env) Val) source pairs →
      ∀ pair ∈ pairs, pair.1.type = key := by
    intro pairs hPairs
    exact key_of_mem_pairs (fun _ _ hRead => hRead.type) hPairs
  constructor
  case succeeds_iff =>
    have hEntry : ∀ entry : String × Value, (∃ pair, EntryRead (d.ReadsAs key env) Val entry pair) ↔
        (∃ k, d.ReadsAs key env (.string entry.1) k) ∧ ∃ t, Val entry.2 t := by
      intro entry
      rw [Prod.exists]
      exact exists_and_exists_comm.symm
    -- whatever is read can be sorted
    simp only [hReads, ← hEntry, ← exists_forall₂_iff]
    constructor
    · rintro ⟨_, pairs, hPairs, -⟩
      exact ⟨pairs, hPairs⟩
    · rintro ⟨pairs, hPairs⟩
      exact ⟨_, pairs, hPairs, rfl⟩
  -- the other parts are what sorting leaves, said of the entries that were read
  case ascending =>
    intro result hResult
    obtain ⟨pairs, hPairs, rfl⟩ := (hReads result).mp hResult
    exact ascending_sortEntries hOrder (hTypes hPairs)
  case keys =>
    intro result hResult k
    obtain ⟨pairs, hPairs, rfl⟩ := (hReads result).mp hResult
    rw [← exists_key_iff hUnique hPairs, ← exists_isLast_iff]
    simp only [← mem_sortEntries_iff hOrder (hTypes hPairs), List.mem_map, Prod.exists,
      exists_and_right, exists_eq_right]
  case entries =>
    intro result hResult k t
    obtain ⟨pairs, hPairs, rfl⟩ := (hReads result).mp hResult
    rw [mem_sortEntries_iff hOrder (hTypes hPairs)]
    exact isLast_iff_lastRead hUnique hVal hPairs hSource
  -- keys that are texts are in order already, and sorting leaves them alone
  case texts =>
    rintro rfl result hResult
    obtain ⟨pairs, hPairs, rfl⟩ := (hReads result).mp hResult
    rw [sortEntries_of_texts hSource hPairs]
    exact hPairs.imp fun entry pair hRead => ⟨(Except.ok.inj hRead.1).symm, hRead.2⟩

/-- A pair succeeds when both of its parts do. -/
theorem pair_eq_ok_iff {α β : Type} {o : Outcome α} {o' : Outcome β} {pair : α × β} :
    (o >>= fun a => o' >>= fun b => .ok (a, b)) = .ok pair ↔ o = .ok pair.1 ∧ o' = .ok pair.2 := by
  obtain ⟨a, b⟩ := pair
  simp only [bind_eq_ok_iff, Except.ok.injEq, Prod.mk.injEq]
  constructor
  · -- both parts are there for the pair to be made of
    rintro ⟨a, hFirst, b, hSecond, rfl, rfl⟩
    exact ⟨hFirst, hSecond⟩
  · rintro ⟨hFirst, hSecond⟩
    exact ⟨a, hFirst, b, hSecond, rfl, rfl⟩

/-! ## Deferred reads -/

namespace Deferred

variable {d : Deferred} {env : Environment} {key value : NativeType} {source : Dict Value}

theorem entry_eq_ok_iff {key value : ScalarKind} {entry : String × Value}
    {scalars : Scalar × Scalar} :
    d.entry key value env entry = .ok scalars ↔
      d.interpret key env (.string entry.1) = .ok scalars.1 ∧
        d.interpret value env entry.2 = .ok scalars.2 := by
  rw [← pair_eq_ok_iff, Deferred.entry]
  -- the key is read first, and its error hides whatever the value would give
  cases d.interpret key env (.string entry.1) with
  | error e => exact Iff.rfl
  | ok k => cases d.interpret value env entry.2 <;> exact Iff.rfl

theorem nativeEntry_eq_ok_iff {scalars : Scalar × Scalar} {pair : Native × Native} :
    nativeEntry key value scalars = .ok pair ↔
      key.ofScalar scalars.1 = .ok pair.1 ∧ value.ofScalar scalars.2 = .ok pair.2 := by
  rw [← pair_eq_ok_iff, nativeEntry]
  cases key.ofScalar scalars.1 with
  | error e => exact Iff.rfl
  | ok k => cases value.ofScalar scalars.2 <;> exact Iff.rfl

/-- An entry is read, as scalars first and as native values then, when its key and its value are
each read on their own. -/
theorem exists_entry_iff {entry : String × Value} {pair : Native × Native} :
    (∃ scalars, d.entry key.kind value.kind env entry = .ok scalars ∧
        nativeEntry key value scalars = .ok pair) ↔
      EntryRead (d.ReadsAs key env) (d.ReadsAs value env) entry pair := by
  simp only [EntryRead, readsAs_iff, entry_eq_ok_iff, nativeEntry_eq_ok_iff, Prod.exists,
    and_and_and_comm, exists_and_exists_comm]

/-- **A deferred read sorts the entries that are read one by one.** -/
theorem asMap_eq_ok_iff (hMap : d.rawRead env = .ok (.map source))
    {result : List (Native × Native)} :
    d.asMap key value env = .ok result ↔
      ∃ pairs, List.Forall₂ (EntryRead (d.ReadsAs key env) (d.ReadsAs value env)) source
          pairs ∧
        sortEntries Native.compare pairs = result := by
  -- in three steps: read as scalars, turn into native values, sort
  have hRead : d.asMap key value env = collect (d.entry key.kind value.kind env) source >>=
      fun scalars => collect (nativeEntry key value) scalars >>= fun natives =>
        .ok (sortEntries Native.compare natives) := by
    rw [asMap, map_eq_collect hMap]
    cases collect (d.entry key.kind value.kind env) source with
    | error e => rfl
    | ok scalars =>
      show _ = collect (nativeEntry key value) scalars >>= _
      dsimp only
      cases collect (nativeEntry key value) scalars <;> rfl
  -- all entries become scalars before the first is a native value, which makes no difference
  have hPairs : ∀ pairs, List.Forall₂ (EntryRead (d.ReadsAs key env) (d.ReadsAs value env))
      source pairs ↔
      ∃ scalars, List.Forall₂ (fun entry s => d.entry key.kind value.kind env entry = .ok s)
          source scalars ∧
        List.Forall₂ (fun s pair => nativeEntry key value s = .ok pair) scalars pairs := by
    intro pairs
    simp only [exists_forall₂_and_iff, exists_entry_iff]
  simp only [hRead, bind_eq_ok_iff, collect_eq_ok_iff_forall₂, Except.ok.injEq, hPairs]
  constructor
  · -- the scalars can be named before the native values or after them
    rintro ⟨scalars, hScalars, natives, hNatives, hSame⟩
    exact ⟨natives, ⟨scalars, hScalars, hNatives⟩, hSame⟩
  · rintro ⟨natives, ⟨scalars, hScalars, hNatives⟩, hSame⟩
    exact ⟨scalars, hScalars, natives, hNatives, hSame⟩

end Deferred

/-! ## Fields -/

namespace Mapping

variable {m : Mapper} {lower : Level}

/-- Interpreted as an element of a container, and converted, a value is one of the type. -/
def ReadsAs (m : Mapper) (lower : Level) (type : FieldType) (v : Value) (t : Typed) : Prop :=
  ∃ r, (convertElement m lower type.shape v).Returns r ∧ type.convert r = .ok t

theorem readsAs_rightUnique (type : FieldType) : Relator.RightUnique (ReadsAs m lower type) := by
  rintro v t t' ⟨r, hReturns, hConvert⟩ ⟨r', hReturns', hConvert'⟩
  obtain rfl : r = r' := hReturns.unique hReturns'
  exact Except.ok.inj (hConvert.symm.trans hConvert')

/-- Elements of a native type are read the way those of a deferred value are. -/
theorem readsAs_native_iff {type : NativeType} (hUnconverted : Unconverted m (.scalar type.kind))
    (v : Value) {w : Value} {t : Typed} :
    ReadsAs m (lower.above m) (.native type) w t ↔
      ∃ n, (m.keep v).ReadsAs type m.environment w n ∧ .native n = t := by
  rw [ReadsAs, FieldType.shape, convertElement_scalar hUnconverted v]
  simp only [Run.returns_ofOutcome, map_eq_ok_iff, exists_exists_and_eq_and, FieldType.convert,
    Deferred.readsAs_iff]
  constructor
  · rintro ⟨s, hScalar, n, hNative, rfl⟩
    exact ⟨n, ⟨s, hScalar, hNative⟩, rfl⟩
  · rintro ⟨n, ⟨s, hScalar, hNative⟩, rfl⟩
    exact ⟨s, hScalar, n, hNative, rfl⟩

/-- The entries of a map are interpreted one by one. -/
theorem convertEntryList_returns_iff {key element : Shape} {entries : List (String × Value)}
    {rs : List (Resolved × Resolved)} :
    (convertEntryList m lower key element entries).Returns rs ↔
      List.Forall₂ (fun entry r => (convertElement m lower key (.string entry.1)).Returns r.1 ∧
        (convertElement m lower element entry.2).Returns r.2) entries rs := by
  induction entries generalizing rs with
  | nil =>
    rw [convertEntryList, Run.returns_pure, List.forall₂_nil_left_iff]
    exact eq_comm
  | cons entry rest ih =>
    rw [convertEntryList, List.forall₂_cons_left_iff]
    simp only [convertEntry, Run.returns_bind, Run.returns_mapError, Run.returns_pure, ih]
    -- an entry returns its pair just when both of its parts return theirs
    constructor
    · rintro ⟨_, ⟨k, hKey, v, hValue, rfl⟩, others, hRest, rfl⟩
      exact ⟨(k, v), others, ⟨hKey, hValue⟩, hRest, rfl⟩
    · rintro ⟨⟨k, v⟩, others, ⟨hKey, hValue⟩, hRest, rfl⟩
      exact ⟨(k, v), ⟨k, hKey, v, hValue, rfl⟩, others, hRest, rfl⟩

theorem convertEntry_eq_ok_iff {key value : Resolved → Outcome Typed} {r : Resolved × Resolved}
    {pair : Typed × Typed} :
    FieldType.convertEntry key value r = .ok pair ↔
      key r.1 = .ok pair.1 ∧ value r.2 = .ok pair.2 := by
  rw [← pair_eq_ok_iff, FieldType.convertEntry]
  cases key r.1 with
  | error e => exact Iff.rfl
  | ok k => cases value r.2 <;> exact Iff.rfl

/-- All entries are interpreted before the first is converted, and still each is read on its
own. -/
theorem exists_convertEntryList_iff {key value : FieldType} {entries : List (String × Value)}
    {pairs : List (Typed × Typed)} :
    (∃ rs, (convertEntryList m lower key.shape value.shape entries).Returns rs ∧
        collect (FieldType.convertEntry key.convert value.convert) rs = .ok pairs) ↔
      List.Forall₂ (EntryRead (ReadsAs m lower key) (ReadsAs m lower value)) entries pairs := by
  -- entry by entry: what the key and the value are interpreted as is converted at once
  have hEntry : ∀ (entry : String × Value) (pair : Typed × Typed),
      (∃ r : Resolved × Resolved,
          ((convertElement m lower key.shape (.string entry.1)).Returns r.1 ∧
            (convertElement m lower value.shape entry.2).Returns r.2) ∧
          FieldType.convertEntry key.convert value.convert r = .ok pair) ↔
        EntryRead (ReadsAs m lower key) (ReadsAs m lower value) entry pair := by
    intro entry pair
    simp only [EntryRead, ReadsAs, convertEntry_eq_ok_iff, Prod.exists, and_and_and_comm,
      exists_and_exists_comm]
  simp only [convertEntryList_returns_iff, collect_eq_ok_iff_forall₂, exists_forall₂_and_iff,
    hEntry]

/-- Keys of a native type are native values. -/
theorem forall₂_native_iff {key : NativeType} (hUnconverted : Unconverted m (.scalar key.kind))
    (v : Value) {Val : Value → Typed → Prop} {source : Dict Value} {pairs : List (Typed × Typed)} :
    List.Forall₂ (EntryRead (ReadsAs m (lower.above m) (.native key)) Val) source pairs ↔
      ∃ natives, List.Forall₂ (EntryRead ((m.keep v).ReadsAs key m.environment) Val) source
          natives ∧
        natives.map (Prod.map .native id) = pairs := by
  -- a key is the native value that the deferred read gives, in a wrapper; the value is untouched
  have hEntry : ∀ (entry : String × Value) (pair : Typed × Typed),
      EntryRead (ReadsAs m (lower.above m) (.native key)) Val entry pair ↔
        ∃ native, EntryRead ((m.keep v).ReadsAs key m.environment) Val entry native ∧
          Prod.map .native id native = pair := by
    rintro entry ⟨k, t⟩
    rw [EntryRead, readsAs_native_iff hUnconverted v]
    constructor
    · rintro ⟨⟨n, hKey, rfl⟩, hVal⟩
      exact ⟨(n, t), ⟨hKey, hVal⟩, rfl⟩
    · rintro ⟨⟨n, t⟩, ⟨hKey, hVal⟩, ⟨⟩⟩
      exact ⟨⟨n, hKey, rfl⟩, hVal⟩
  -- an equation between lists is one between their items
  have hMap : ∀ natives : List (Native × Typed), natives.map (Prod.map .native id) = pairs ↔
      List.Forall₂ (fun native pair => Prod.map .native id native = pair) natives pairs := by
    intro natives
    rw [← List.forall₂_eq_eq_eq, List.forall₂_map_left_iff]
  -- with that, wrapping happens entry by entry
  simp only [hMap, exists_forall₂_and_iff, ← hEntry]

section
variable {type : SectionType} {root : String} {outer : Option (Dict Value)} {i : Instance}
  {field : Field} {v : Value} {source : Dict Value}

/-- **A field that is a map sorts the entries that are read one by one.** -/
theorem mapLocatedField_map_returns_iff {key value : FieldType}
    (hUnconverted : Unconverted m (FieldType.map key value).shape)
    (hFound : Resolution.resolve m.store (fieldPath root field) outer = .ok (some v))
    (hMap : evaluate m v = .ok (.map source)) {j : Instance} :
    (mapLocatedField m (lower.above m) type root outer i
        (field.retyped (.map key value))).Returns j ↔
      ∃ pairs, List.Forall₂ (EntryRead (ReadsAs m lower key) (ReadsAs m lower value)) source
          pairs ∧
        i.assign field.chain field.name (.map (sortEntries Typed.compare pairs)) = j := by
  -- the field is there, and its shape is none that is treated on its own
  have hNull : v.isNull = false := by
    cases v with
    | null => cases hMap
    | _ => rfl
  have hAny : (FieldType.map key value).shape ≠ .any := by
    intro h
    cases h
  have hSection : ∀ inner, (FieldType.map key value).shape ≠ .section inner := by
    intro inner h
    cases h
  -- the map is interpreted entry by entry, and then converted and sorted as a whole
  have hInterpret : (lower.above m).interpret v (FieldType.map key value).shape =
      convertEntryList m lower key.shape value.shape source >>= fun rs => pure (.map rs) := by
    show convertEntries m lower key.shape value.shape v >>= _ = _
    rw [convertEntries, hMap]
    rfl
  have hConvert : ∀ rs t, (FieldType.map key value).convert (.map rs) = .ok t ↔
      ∃ pairs, collect (FieldType.convertEntry key.convert value.convert) rs = .ok pairs ∧
        .map (sortEntries Typed.compare pairs) = t := fun _ _ => map_eq_ok_iff
  rw [mapLocatedField, Run.returns_mapError,
    mapField_of_found hUnconverted hAny hSection hFound hNull, hInterpret]
  simp only [Run.returns_bind, Run.returns_pure, Run.returns_ofOutcome,
    ← exists_convertEntryList_iff]
  -- what is left is to put the two steps together, or to take them apart
  constructor
  · rintro ⟨_, ⟨rs, hEntries, rfl⟩, t, hTyped, rfl⟩
    obtain ⟨pairs, hPairs, rfl⟩ := (hConvert rs t).mp hTyped
    exact ⟨pairs, ⟨rs, hEntries, hPairs⟩, rfl⟩
  · rintro ⟨pairs, ⟨rs, hEntries, hPairs⟩, rfl⟩
    exact ⟨_, ⟨rs, hEntries, rfl⟩, _, (hConvert rs _).mpr ⟨pairs, hPairs, rfl⟩, rfl⟩

/-- The instance, once the field is assigned a map with native keys. -/
def assignMap (i : Instance) (field : Field) (result : List (Native × Typed)) : Instance :=
  i.assign field.chain field.name (.map (result.map (Prod.map .native id)))

theorem mapLocatedField_native_map_returns_iff {key : NativeType} {value : FieldType}
    (hUnconverted : Unconverted m (.map (.scalar key.kind) value.shape))
    (hKeys : Unconverted m (.scalar key.kind))
    (hFound : Resolution.resolve m.store (fieldPath root field) outer = .ok (some v))
    (hMap : evaluate m v = .ok (.map source)) {j : Instance} :
    (mapLocatedField m ((lower.above m).above m) type root outer i
        (field.retyped (.map (.native key) value))).Returns j ↔
      ∃ pairs, List.Forall₂ (EntryRead ((m.keep v).ReadsAs key m.environment)
          (ReadsAs m (lower.above m) value)) source pairs ∧
        assignMap i field (sortEntries Native.compare pairs) = j := by
  rw [mapLocatedField_map_returns_iff hUnconverted hFound hMap]
  -- as keys are read as native values, sorting can be done before they are wrapped
  simp only [forall₂_native_iff hKeys v]
  constructor
  · rintro ⟨_, ⟨pairs, hPairs, rfl⟩, rfl⟩
    refine ⟨pairs, hPairs, ?_⟩
    rw [sortEntries_map Typed.compare_native, assignMap]
  · rintro ⟨pairs, hPairs, rfl⟩
    refine ⟨_, ⟨pairs, hPairs, rfl⟩, ?_⟩
    rw [sortEntries_map Typed.compare_native, assignMap]

end

/-- Another value of a field makes another instance. -/
theorem assign_injective (i : Instance) (chain : List String) (name : String) :
    Function.Injective (i.assign chain name) := by
  intro t t' hSame
  induction chain generalizing i with
  | nil =>
    -- without bases, what was assigned stands at the end of the list
    have hAssigned : i.assigned ++ [(name, t)] = i.assigned ++ [(name, t')] :=
      congrArg Instance.assigned hSame
    rw [List.append_cancel_left_eq] at hAssigned
    cases hAssigned
    rfl
  | cons base chain ih =>
    -- otherwise it is what the first base of the chain holds, one base further in
    have hBase := congrArg (fun j : Instance => Dict.get? base j.bases) hSame
    simp only [Instance.assign, Dict.get?_insert_self, Option.some.injEq] at hBase
    exact ih _ hBase

theorem assignMap_injective (i : Instance) (field : Field) :
    Function.Injective (assignMap i field) := by
  intro result result' hSame
  have hEntries := Typed.map.inj (assign_injective i field.chain field.name hSame)
  have hNative : Function.Injective Typed.native := fun _ _ => Typed.native.inj
  exact List.map_injective_iff.mpr (hNative.prodMap Function.injective_id) hEntries

/-- **Typed maps keep the last of colliding entries, and lose nothing else.** This holds of a
deferred read, and of a field with native keys and values of any type, wherever no converter
applies to the map or to its keys. A field that is mapped is assigned a map, and native
values are read there as the deferred read does. -/
theorem typed_maps_keep_last {key : NativeType} (hKey : key.IsKey) {source : Dict Value}
    (hSource : Dict.Ordered source) :
    (∀ (d : Deferred) (env : Environment) (value : NativeType),
      d.rawRead env = .ok (.map source) →
        ReadsMap d key env (d.ReadsAs value env) source
          fun result => d.asMap key value env = .ok result) ∧
    ∀ (m : Mapper) (type : SectionType) (root : String) (outer : Option (Dict Value))
      (i : Instance) (field : Field) (v : Value) (value : FieldType) (depth : Nat),
      Unconverted m (.map (.scalar key.kind) value.shape) → Unconverted m (.scalar key.kind) →
      Resolution.resolve m.store (fieldPath root field) outer = .ok (some v) →
      evaluate m v = .ok (.map source) →
        let mapped := mapLocatedField m (level m (depth + 2)) type root outer i
          (field.retyped (.map (.native key) value))
        (∀ j, mapped.Returns j → ∃ result, assignMap i field result = j) ∧
          ReadsMap (m.keep v) key m.environment (ReadsAs m (level m (depth + 1)) value) source
            (fun result => mapped.Returns (assignMap i field result)) ∧
          ∀ native, value = .native native → Unconverted m (.scalar native.kind) → ∀ w t,
            ReadsAs m (level m (depth + 1)) value w t ↔
              ∃ n, (m.keep v).ReadsAs native m.environment w n ∧ .native n = t := by
  constructor
  · intro d env value hMap
    -- a deferred read is one of sorted pairs
    exact .of_sorted hKey (Deferred.readsAs_rightUnique value) hSource
      fun _ => Deferred.asMap_eq_ok_iff hMap
  · intro m type root outer i field v value depth hUnconverted hKeys hFound hMap
    refine ⟨?_, .of_sorted hKey (readsAs_rightUnique value) hSource fun result => ?_, ?_⟩
    · -- whatever the field is assigned is a map of this form
      intro j hReturns
      obtain ⟨pairs, -, hSame⟩ :=
        (mapLocatedField_native_map_returns_iff hUnconverted hKeys hFound hMap).mp hReturns
      exact ⟨_, hSame⟩
    · -- the instance determines the map that it was assigned
      refine (mapLocatedField_native_map_returns_iff hUnconverted hKeys hFound hMap).trans ?_
      simp only [(assignMap_injective i field).eq_iff]
      rfl
    · -- values of native types are read alike in both
      rintro native rfl hNative w t
      exact readsAs_native_iff hNative v

/-- Sizes by number. Three of the numbers are the same one. -/
def numberedSizes : Dict Value :=
  [(" 1", .long 10), ("01", .expression ⟨"n", .variable "n"⟩), ("1", .string "30"), ("2", .long 40)]

def numberedMapper : Mapper :=
  ⟨fun _ => .plain, .ofRoot [("sizes", .map numberedSizes)], .interpreter, none, [("n", .long 20)]⟩

def keptSizes : Deferred :=
  numberedMapper.keep (.map numberedSizes)

/-- The sizes as a field. -/
def mappedSizes : Run Instance :=
  mapLocatedField numberedMapper (level numberedMapper 2) .plain "" none (.blank "box")
    (Field.retyped (.ofType "sizes" .deferred) (.map (.native .long) (.native .int)))

/-- The size of the first number is the one of its last spelling, whether it is read later or
mapped at once. -/
theorem numberedSizes_kept :
    NativeType.long.IsKey ∧ Dict.Ordered numberedSizes ∧
      keptSizes.rawRead numberedMapper.environment = .ok (.map numberedSizes) ∧
      keptSizes.asMap .long .int numberedMapper.environment =
        .ok [(.long 1, .int 30), (.long 2, .int 40)] ∧
      LastRead (keptSizes.ReadsAs .long numberedMapper.environment)
        (keptSizes.ReadsAs .int numberedMapper.environment) numberedSizes (.long 1) (.int 30) ∧
      (∀ shape, Unconverted numberedMapper shape) ∧
      Resolution.resolve numberedMapper.store (fieldPath "" (.ofType "sizes" .deferred)) none =
        .ok (some (.map numberedSizes)) ∧
      mappedSizes.Returns (assignMap (.blank "box") (.ofType "sizes" .deferred)
        [(.long 1, .native (.int 30)), (.long 2, .native (.int 40))]) ∧
      LastRead (keptSizes.ReadsAs .long numberedMapper.environment)
        (ReadsAs numberedMapper (level numberedMapper 1) (.native .int)) numberedSizes (.long 1)
        (.native (.int 30)) := by
  have hKey : NativeType.long.IsKey := by decide
  have hOrdered : Dict.Ordered numberedSizes := by
    unfold Dict.Ordered
    decide
  have hConverters := unconverted_of_none (m := numberedMapper) rfl
  obtain ⟨hDeferred, hField⟩ := typed_maps_keep_last hKey hOrdered
  -- the deferred read and the mapped field, each at its own result
  have hRead := hDeferred keptSizes numberedMapper.environment .int rfl
  obtain ⟨-, hMapped, -⟩ := hField numberedMapper .plain "" none (.blank "box")
    (.ofType "sizes" .deferred) (.map numberedSizes) (.native .int) 0 (hConverters _)
    (hConverters _) rfl rfl
  -- of the two spellings of 1, the one with the last key counts
  have hLast := hRead.entries [(.long 1, .int 30), (.long 2, .int 40)] rfl (.long 1) (.int 30)
  have hLast' := hMapped.entries [(.long 1, .native (.int 30)), (.long 2, .native (.int 40))] rfl
    (.long 1) (.native (.int 30))
  exact ⟨hKey, hOrdered, rfl, rfl, hLast.mp List.mem_cons_self, hConverters, rfl, rfl,
    hLast'.mp List.mem_cons_self⟩

end Mapping

end TypedConfig
