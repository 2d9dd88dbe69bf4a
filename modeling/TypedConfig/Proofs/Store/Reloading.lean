import TypedConfig.Proofs.Collect
import TypedConfig.Proofs.Dict
import TypedConfig.Proofs.Number.Finite
import TypedConfig.Store.Loading

/-!
# Loading what was exported

A loaded tree can be exported and loaded again, always. Whether it comes back as
it was depends on the keys: loading hands the marker of a key down through lists,
however deep they nest, while exporting looks no further than the items of the
list that stands under the key. So an expression in a list of lists is exported
under a key without the marker and comes back as a text; and a key that still
ends in the marker, because it was written twice, loses it the next time.

Main results:

* `loaded_of_toValue` — what loading a document can give.
* `exists_reload` — loading the export of such a value succeeds, and gives the
  value back exactly when it is `Exportable`.
* `reload_eq_iff` — the same for stores.
-/

namespace TypedConfig

/-! ## Markers -/

theorem stripMarker?_append {marker : String} (hMarker : marker ≠ "") (key : String) :
    stripMarker? marker (key ++ marker) = some key := by
  have hTake : (key ++ marker).toList.take ((key ++ marker).toList.length - marker.toList.length) =
      key.toList := by
    rw [String.toList_append, List.length_append, Nat.add_sub_cancel, List.take_left]
  rw [stripMarker?, if_pos (by simp [hMarker]), hTake, String.ofList_toList]

/-- A key that loses the marker ended in it. -/
theorem eq_append_of_stripMarker? {marker key stripped : String}
    (h : stripMarker? marker key = some stripped) : key = stripped ++ marker := by
  unfold stripMarker? at h
  split at h
  · next hMarked =>
    cases h
    rw [Bool.and_eq_true, List.isSuffixOf_iff_suffix] at hMarked
    obtain ⟨front, hFront⟩ := hMarked.2
    -- taking all but the marker leaves what stands in front of it
    rw [← String.toList_inj, String.toList_append, String.toList_ofList, ← hFront,
      List.length_append, Nat.add_sub_cancel, List.take_left]
  · cases h

/-! ## Trees that come back -/

/-- Somewhere in the value stands a map with this entry. -/
inductive Value.HasEntry : Value → String → Value → Prop
  | here {entries : Dict Value} {key : String} {value : Value} :
      (key, value) ∈ entries → HasEntry (.map entries) key value
  | deeper {entries : Dict Value} {entry : String × Value} {key : String} {value : Value} :
      entry ∈ entries → HasEntry entry.2 key value → HasEntry (.map entries) key value
  | listItem {items : List Value} {item : Value} {key : String} {value : Value} :
      item ∈ items → HasEntry item key value → HasEntry (.list items) key value
  | setItem {items : List Value} {item : Value} {key : String} {value : Value} :
      item ∈ items → HasEntry item key value → HasEntry (.set items) key value

/-- The value is an expression, or a list in which one stands, in a list of lists
as well. -/
inductive Value.HasBareExpression : Value → Prop
  | expression (e : Expression) : HasBareExpression (.expression e)
  | item {items : List Value} {item : Value} :
      item ∈ items → HasBareExpression item → HasBareExpression (.list items)

/-- The entry is exported under a key from which loading concludes what it is:
under a marked one, or under one without the marker and with no expression in need
of it. -/
def KeepsEntry (marker key : String) (value : Value) : Prop :=
  value.isMarked = true ∨ (stripMarker? marker key = none ∧ ¬value.HasBareExpression)

/-- All entries of the value, at every depth, keep what they are. -/
def Exportable (marker : String) (value : Value) : Prop :=
  ∀ key inner, value.HasEntry key inner → KeepsEntry marker key inner

theorem exportable_list {marker : String} {items : List Value} :
    Exportable marker (.list items) ↔ ∀ item ∈ items, Exportable marker item := by
  constructor
  · intro h item hMem key inner hEntry
    exact h key inner (.listItem hMem hEntry)
  · intro h key inner hEntry
    cases hEntry with
    | listItem hMem hEntry => exact h _ hMem key inner hEntry

theorem exportable_map {marker : String} {entries : Dict Value} :
    Exportable marker (.map entries) ↔
      ∀ entry ∈ entries, KeepsEntry marker entry.1 entry.2 ∧ Exportable marker entry.2 := by
  constructor
  · intro h entry hMem
    exact ⟨h _ _ (.here hMem), fun key inner hEntry => h key inner (.deeper hMem hEntry)⟩
  · intro h key inner hEntry
    cases hEntry with
    | here hMem => exact (h _ hMem).1
    | deeper hMem hEntry => exact (h _ hMem).2 key inner hEntry

theorem hasBareExpression_list {items : List Value} :
    (Value.list items).HasBareExpression ↔ ∃ item ∈ items, item.HasBareExpression := by
  constructor
  · intro h
    cases h with
    | item hMem hItem => exact ⟨_, hMem, hItem⟩
  · rintro ⟨item, hMem, hItem⟩
    exact .item hMem hItem

/-! ## Loaded values -/

/-- What loading can give, below a marked key or not. Texts stand where no marker
reaches and expressions where one does; the maps are in order, and an entry whose
key still ends in the marker was below a marked one. -/
inductive Loaded (marker : String) : Bool → Value → Prop
  | null (deferred : Bool) : Loaded marker deferred .null
  | bool (deferred : Bool) (b : Bool) : Loaded marker deferred (.bool b)
  | long (deferred : Bool) (n : Long) : Loaded marker deferred (.long n)
  | double (deferred : Bool) {x : Float} (hFinite : x.isFinite = true) :
      Loaded marker deferred (.double x)
  | string (s : String) : Loaded marker false (.string s)
  | expression {e : Expression} (hParse : Expression.parse e.source = .ok e) :
      Loaded marker true (.expression e)
  | list {deferred : Bool} {items : List Value} :
      (∀ item ∈ items, Loaded marker deferred item) → Loaded marker deferred (.list items)
  | map (deferred : Bool) {entries : Dict Value} {marked : String × Value → Bool} :
      entries.Ordered → (∀ entry ∈ entries, Loaded marker (marked entry) entry.2) →
      (∀ entry ∈ entries, marked entry = false → stripMarker? marker entry.1 = none) →
      Loaded marker deferred (.map entries)

/-- The entries of a map that is being loaded. -/
structure LoadedEntries (marker : String) (entries : Dict Value) : Prop where
  ordered : entries.Ordered
  loaded : ∀ entry ∈ entries, ∃ marked, Loaded marker marked entry.2 ∧
    (marked = false → stripMarker? marker entry.1 = none)

theorem LoadedEntries.map {marker : String} {entries : Dict Value}
    (h : LoadedEntries marker entries) (deferred : Bool) :
    Loaded marker deferred (.map entries) := by
  have hLoaded := h.loaded
  choose! marked hLoaded using hLoaded
  exact .map deferred h.ordered (fun entry hMem => (hLoaded entry hMem).1)
    fun entry hMem => (hLoaded entry hMem).2

theorem LoadedEntries.insert {marker : String} {entries : Dict Value}
    (h : LoadedEntries marker entries) {key : String} {value : Value} {marked : Bool}
    (hValue : Loaded marker marked value)
    (hKey : marked = false → stripMarker? marker key = none) :
    LoadedEntries marker (entries.insert key value) where
  ordered := h.ordered.insert key value
  loaded entry hMem := by
    -- the new entry was loaded, and so were the others
    rcases Dict.mem_of_mem_insert hMem with rfl | hMem
    · exact ⟨marked, hValue, hKey⟩
    · exact h.loaded entry hMem

/-- An expression that was read remembers the text it was read from. -/
theorem source_of_parse {s : String} {e : Expression} (h : Expression.parse s = .ok e) :
    e.source = s := by
  unfold Expression.parse at h
  -- of all ways out only the last one gives an expression
  split at h
  · cases h
  · split at h
    · cases h
    · split at h
      · cases h
      · cases h
        rfl

theorem parse_source {s : String} {e : Expression} (h : Expression.parse s = .ok e) :
    Expression.parse e.source = .ok e := by
  rw [source_of_parse h, h]

mutual

/-- Loading a document gives values of this kind only. -/
theorem loaded_of_toValue {marker : String} {deferred : Bool} (document : Document) {value : Value}
    (h : document.toValue marker deferred = .ok value) : Loaded marker deferred value := by
  cases document with
  | null => cases h; exact .null deferred
  | bool b => cases h; exact .bool deferred b
  | integer n => cases h; exact .long deferred n
  | natural n =>
    rw [Document.toValue] at h
    -- a number in range stays whole, and a larger one becomes a finite double
    split at h
    · cases h
      exact .long deferred _
    · cases h
      exact .double deferred (Double.isFinite_toFloat n)
  | decimal x => cases h; exact .double deferred x.finite
  | string s =>
    rw [Document.toValue] at h
    cases deferred with
    | false => cases h; exact .string s
    | true =>
      -- below a marked key every text is an expression, or loading fails
      rw [if_pos rfl] at h
      split at h
      · next hParse =>
        cases h
        exact .expression (parse_source hParse)
      · cases h
  | array items =>
    rw [Document.toValue] at h
    split at h
    · next values hValues =>
      cases h
      exact .list (loaded_of_toValues items hValues)
    · cases h
  | object entries =>
    rw [Document.toValue] at h
    split at h
    · next loaded hEntries =>
      cases h
      -- the entries are put into an empty map one by one
      have hEmpty : LoadedEntries marker [] := ⟨List.Pairwise.nil, nofun⟩
      exact (loadedEntries_of_toEntries entries hEmpty hEntries).map deferred
    · cases h
termination_by structural document

theorem loaded_of_toValues {marker : String} {deferred : Bool} (items : List Document)
    {values : List Value} (h : Document.toValues marker deferred items = .ok values) :
    ∀ value ∈ values, Loaded marker deferred value := by
  cases items with
  | nil => cases h; exact nofun
  | cons item rest =>
    rw [Document.toValues] at h
    split at h
    · cases h
    · next first hFirst =>
      split at h
      · cases h
      · next others hOthers =>
        cases h
        intro value hMem
        rcases List.mem_cons.mp hMem with rfl | hMem
        · exact loaded_of_toValue item hFirst
        · exact loaded_of_toValues rest hOthers value hMem
termination_by structural items

theorem loadedEntries_of_toEntries {marker : String} (entries : List (String × Document))
    {loaded result : Dict Value} (hLoaded : LoadedEntries marker loaded)
    (h : Document.toEntries marker entries loaded = .ok result) :
    LoadedEntries marker result := by
  cases entries with
  | nil => cases h; exact hLoaded
  | cons entry rest =>
    obtain ⟨key, document⟩ := entry
    rw [Document.toEntries] at h
    split at h
    · cases h
    · next value hValue =>
      -- the marker reaches the value exactly where the key had one to strip
      refine loadedEntries_of_toEntries rest
        (hLoaded.insert (loaded_of_toValue document hValue) fun hMarked => ?_) h
      rw [Option.isSome_eq_false_iff, Option.isNone_iff_eq_none] at hMarked
      rw [hMarked]
      exact hMarked
termination_by structural entries

end

/-! ## One entry at a time -/

/-- What loading makes of one entry of an object. -/
def loadEntry (marker : String) (entry : String × Document) : Outcome (String × Value) :=
  match entry.2.toValue marker (stripMarker? marker entry.1).isSome with
  | .ok value => .ok ((stripMarker? marker entry.1).getD entry.1, value)
  | .error e => .error e

/-- One entry of a map as it is exported. -/
def exportEntry (marker : String) (entry : String × Value) : String × Document :=
  (Value.exportKey marker entry.1 entry.2, entry.2.toDocument marker)

/-- The key an exported entry has when it is loaded again. -/
def reloadedKey (marker : String) (entry : String × Value) : String :=
  (stripMarker? marker (Value.exportKey marker entry.1 entry.2)).getD
    (Value.exportKey marker entry.1 entry.2)

/-- The entry is exported under a key that becomes its own one again. -/
def KeepsKey (marker : String) (entry : String × Value) : Prop :=
  entry.2.isMarked = true ∨ stripMarker? marker entry.1 = none

theorem toValues_eq_collect (marker : String) (deferred : Bool) (items : List Document) :
    Document.toValues marker deferred items = collect (Document.toValue marker deferred) items := by
  induction items with
  | nil => rfl
  | cons item rest ih =>
    rw [Document.toValues, collect, ih]
    cases Document.toValue marker deferred item with
    | error e => rfl
    | ok value => cases collect (Document.toValue marker deferred) rest <;> rfl

theorem toDocument_expression (marker : String) (e : Expression) :
    (Value.expression e).toDocument marker = .string e.source := by
  cases e
  rfl

theorem toDocuments_eq_map (marker : String) (items : List Value) :
    Value.toDocuments marker items = items.map (Value.toDocument marker) := by
  induction items with
  | nil => rfl
  | cons item rest ih => rw [Value.toDocuments, ih, List.map_cons]

theorem toEntries_of_collect {marker : String} {entries : List (String × Document)}
    {loaded pairs : Dict Value} (h : collect (loadEntry marker) entries = .ok pairs) :
    Document.toEntries marker entries loaded = .ok (Dict.insertAll pairs loaded) := by
  induction entries generalizing loaded pairs with
  | nil =>
    cases h
    rfl
  | cons entry rest ih =>
    obtain ⟨key, document⟩ := entry
    rw [collect_eq_ok_iff] at h
    cases pairs with
    | nil => cases h
    | cons pair pairs =>
      -- every entry has its pair, in order
      obtain ⟨hEntry, hRest⟩ := List.cons.inj h
      rw [loadEntry] at hEntry
      split at hEntry
      · next value hValue =>
        cases hEntry
        rw [Document.toEntries]
        dsimp only at hValue ⊢
        rw [hValue]
        exact ih (collect_eq_ok_iff.mpr hRest)
      · cases hEntry

theorem exportEntries_eq_insertAll (marker : String) (entries : List (String × Value))
    (exported : Dict Document) : Value.exportEntries marker entries exported =
      Dict.insertAll (entries.map (exportEntry marker)) exported := by
  induction entries generalizing exported with
  | nil => rfl
  | cons entry rest ih =>
    obtain ⟨key, value⟩ := entry
    rw [Value.exportEntries, ih]
    rfl

theorem exportKey_of_isMarked {marker key : String} {value : Value}
    (h : value.isMarked = true) : Value.exportKey marker key value = key ++ marker :=
  if_pos h

theorem exportKey_of_not_isMarked {marker key : String} {value : Value}
    (h : value.isMarked = false) : Value.exportKey marker key value = key :=
  if_neg (by rw [h]; exact Bool.false_ne_true)

theorem reloadedKey_of_keepsKey {marker : String} (hMarker : marker ≠ "")
    {entry : String × Value} (h : KeepsKey marker entry) : reloadedKey marker entry = entry.1 := by
  unfold reloadedKey
  cases hMarked : entry.2.isMarked with
  -- a marked entry gets the marker and loses it again
  | true => rw [exportKey_of_isMarked hMarked, stripMarker?_append hMarker]; rfl
  | false =>
    -- the key of any other one has no marker to lose
    have hPlain : stripMarker? marker entry.1 = none := by
      rcases h with h | h
      · rw [hMarked] at h
        cases h
      · exact h
    rw [exportKey_of_not_isMarked hMarked, hPlain]
    rfl

/-- A key that comes back under an entry whose own key is lost is the longer key of
another lost one: losing the marker once more made it. -/
theorem exists_longer_key {marker : String} {entries : Dict Value}
    (hKeys : (entries.map Prod.fst).Nodup)
    (hBack : ∀ entry ∈ entries, ∃ origin ∈ entries, reloadedKey marker origin = entry.1)
    {entry : String × Value} (hMem : entry ∈ entries) (hLost : ¬KeepsKey marker entry) :
    ∃ origin ∈ entries, ¬KeepsKey marker origin ∧ origin.1 = entry.1 ++ marker := by
  rw [KeepsKey, not_or, Bool.not_eq_true] at hLost
  obtain ⟨origin, hOrigin, hKey⟩ := hBack entry hMem
  unfold reloadedKey at hKey
  cases hStrip : stripMarker? marker (Value.exportKey marker origin.1 origin.2) with
  | none =>
    -- such a key would not end in the marker
    rw [hStrip] at hKey
    have hSame : Value.exportKey marker origin.1 origin.2 = entry.1 := hKey
    rw [hSame] at hStrip
    exact absurd hStrip hLost.2
  | some stripped =>
    rw [hStrip] at hKey
    have hSame : stripped = entry.1 := hKey
    have hExported := eq_append_of_stripMarker? hStrip
    rw [hSame] at hExported
    cases hMarked : origin.2.isMarked with
    | true =>
      -- a marked entry of this key is the entry itself, which is not marked
      rw [exportKey_of_isMarked hMarked, String.append_left_inj] at hExported
      have hEntry : origin = entry := Dict.eq_of_key_eq hKeys hOrigin hMem hExported
      rw [hEntry, hLost.1] at hMarked
      cases hMarked
    | false =>
      -- unmarked as well, it is lost, and its own key is the longer one
      rw [exportKey_of_not_isMarked hMarked] at hExported hStrip
      refine ⟨origin, hOrigin, ?_, hExported⟩
      rw [KeepsKey, not_or, Bool.not_eq_true, hStrip]
      exact ⟨hMarked, nofun⟩

/-- If every key comes back, none is lost: the longest lost one would have to come
from a longer one. -/
theorem keepsKey_of_back {marker : String} (hMarker : marker ≠ "") {entries : Dict Value}
    (hKeys : (entries.map Prod.fst).Nodup)
    (hBack : ∀ entry ∈ entries, ∃ origin ∈ entries, reloadedKey marker origin = entry.1) :
    ∀ entry ∈ entries, KeepsKey marker entry := by
  intro entry hMem
  by_contra hLost
  -- by induction there are lost keys of every length, while there are only so many entries
  have hLong : ∀ n, ∃ lost ∈ entries, ¬KeepsKey marker lost ∧ n ≤ lost.1.length := by
    intro n
    induction n with
    | zero => exact ⟨entry, hMem, hLost, Nat.zero_le _⟩
    | succ n ih =>
      obtain ⟨lost, hLostMem, hLost, hLength⟩ := ih
      obtain ⟨longer, hLongerMem, hLonger, hKey⟩ := exists_longer_key hKeys hBack hLostMem hLost
      refine ⟨longer, hLongerMem, hLonger, ?_⟩
      have hPositive : marker.length ≠ 0 := fun hZero => hMarker (String.length_eq_zero_iff.mp hZero)
      rw [hKey, String.length_append]
      omega
  -- but the lengths of the keys are bounded
  have hBound : ∀ other ∈ entries,
      other.1.length ≤ (entries.map fun entry => entry.1.length).max?.getD 0 := fun other hOther =>
    List.le_max?_getD_of_mem (List.mem_map.mpr ⟨other, hOther, rfl⟩)
  obtain ⟨lost, hLostMem, -, hLength⟩ :=
    hLong ((entries.map fun entry => entry.1.length).max?.getD 0 + 1)
  have hLostBound := hBound lost hLostMem
  omega

/-! ## Whole maps -/

/-- The entries of a map that all keep their keys are exported under different
ones. -/
theorem nodup_exportKeys {marker : String} (hMarker : marker ≠ "") {entries : Dict Value}
    (hKeys : (entries.map Prod.fst).Nodup)
    (hKept : ∀ entry ∈ entries, KeepsKey marker entry) :
    ((entries.map (exportEntry marker)).map Prod.fst).Nodup := by
  -- loading them again tells them apart
  refine List.Nodup.of_map (fun key => (stripMarker? marker key).getD key) ?_
  have hBack : ((entries.map (exportEntry marker)).map Prod.fst).map
      (fun key => (stripMarker? marker key).getD key) = entries.map Prod.fst := by
    rw [List.map_map, List.map_map]
    exact List.map_congr_left fun entry hMem => reloadedKey_of_keepsKey hMarker (hKept entry hMem)
  rw [hBack]
  exact hKeys

/-- Entries that keep their keys are loaded again in their old order, whatever
order they were exported in. -/
theorem reload_of_keepsKey {marker : String} (hMarker : marker ≠ "") {entries : Dict Value}
    (hOrdered : entries.Ordered) (hKept : ∀ entry ∈ entries, KeepsKey marker entry)
    {again : String × Value → Value}
    (hAgain : ∀ entry ∈ entries, loadEntry marker (exportEntry marker entry) =
      .ok (reloadedKey marker entry, again entry))
    {pairs : Dict Value} (hPairs : collect (loadEntry marker)
      (Dict.ofList (entries.map (exportEntry marker))) = .ok pairs) :
    Dict.ofList pairs = entries.map fun entry => (entry.1, again entry) := by
  -- exporting loses no entry,
  have hExported : (Dict.ofList (entries.map (exportEntry marker))).Perm
      (entries.map (exportEntry marker)) :=
    Dict.ofList_perm (nodup_exportKeys hMarker hOrdered.nodup_keys hKept)
  -- loading gives every one its own key back,
  have hReloaded : (entries.map (exportEntry marker)).map (loadEntry marker) =
      (entries.map fun entry => (entry.1, again entry)).map .ok := by
    rw [List.map_map, List.map_map]
    refine List.map_congr_left fun entry hMem => ?_
    show loadEntry marker (exportEntry marker entry) = .ok (entry.1, again entry)
    rw [hAgain entry hMem, reloadedKey_of_keepsKey hMarker (hKept entry hMem)]
  -- exporting has sorted the entries anew, by their exported keys
  have hPerm : pairs.Perm (entries.map fun entry => (entry.1, again entry)) := by
    have hInjective : Function.Injective (Except.ok : String × Value → Outcome (String × Value)) :=
      fun _ _ h => Except.ok.inj h
    rw [← List.map_perm_map_iff hInjective, ← hReloaded, ← collect_eq_ok_iff.mp hPairs]
    exact hExported.map _
  have hKeys : (entries.map fun entry => (entry.1, again entry)).map Prod.fst =
      entries.map Prod.fst := by
    rw [List.map_map]
    rfl
  have hPairKeys : (pairs.map Prod.fst).Nodup := by
    rw [(hPerm.map Prod.fst).nodup_iff, hKeys]
    exact hOrdered.nodup_keys
  have hReloadedOrdered : Dict.Ordered (entries.map fun entry => (entry.1, again entry)) :=
    List.pairwise_map.mpr hOrdered
  exact (Dict.ordered_ofList pairs).eq_of_perm hReloadedOrdered
    ((Dict.ofList_perm hPairKeys).trans hPerm)

/-- A map whose entries can all be loaded again is loaded again, and comes back
exactly when all its keys do and all its values. -/
theorem reload_entries {marker : String} (hMarker : marker ≠ "") {entries : Dict Value}
    (hOrdered : entries.Ordered) {again : String × Value → Value}
    (hAgain : ∀ entry ∈ entries, loadEntry marker (exportEntry marker entry) =
      .ok (reloadedKey marker entry, again entry)) :
    ∃ reloaded, Document.toEntries marker (Value.exportEntries marker entries []) [] =
        .ok reloaded ∧
      (reloaded = entries ↔
        ∀ entry ∈ entries, KeepsKey marker entry ∧ again entry = entry.2) := by
  -- the map is exported entry by entry,
  have hExport : Value.exportEntries marker entries [] =
      Dict.ofList (entries.map (exportEntry marker)) := exportEntries_eq_insertAll ..
  -- and what was exported is loaded again
  have hLoads : ∀ exported ∈ Dict.ofList (entries.map (exportEntry marker)),
      ∃ entry ∈ entries, loadEntry marker exported =
        .ok (reloadedKey marker entry, again entry) := by
    intro exported hMem
    obtain ⟨entry, hEntry, rfl⟩ := List.mem_map.mp (Dict.mem_of_mem_ofList hMem)
    exact ⟨entry, hEntry, hAgain entry hEntry⟩
  obtain ⟨pairs, hPairs⟩ := exists_collect fun exported hMem =>
    let ⟨_, _, hLoad⟩ := hLoads exported hMem
    ⟨_, hLoad⟩
  refine ⟨Dict.ofList pairs, ?_, ?_⟩
  · rw [hExport, toEntries_of_collect hPairs]
    rfl
  · constructor
    · intro hSame
      -- every entry came back under its key, so no key was lost
      have hBack : ∀ entry ∈ entries, ∃ origin ∈ entries, reloadedKey marker origin = entry.1 := by
        intro entry hMem
        rw [← hSame] at hMem
        obtain ⟨exported, hExported, hLoad⟩ :=
          exists_of_mem_collect hPairs (Dict.mem_of_mem_ofList hMem)
        obtain ⟨origin, hOrigin, hOriginLoad⟩ := hLoads exported hExported
        rw [hOriginLoad] at hLoad
        exact ⟨origin, hOrigin, congrArg Prod.fst (Except.ok.inj hLoad)⟩
      have hKept := keepsKey_of_back hMarker hOrdered.nodup_keys hBack
      -- and then the entries stand in their old order, each with its own value
      rw [reload_of_keepsKey hMarker hOrdered hKept hAgain hPairs] at hSame
      intro entry hMem
      refine ⟨hKept entry hMem, ?_⟩
      have hEntries : (entries.map fun entry => (entry.1, again entry)) = entries.map id := by
        rw [hSame, List.map_id]
      exact congrArg Prod.snd (List.map_inj_left.mp hEntries entry hMem)
    · -- entries that are kept come back in their order, with their values
      intro h
      rw [reload_of_keepsKey hMarker hOrdered (fun entry hMem => (h entry hMem).1) hAgain hPairs]
      calc
        (entries.map fun entry => (entry.1, again entry)) = entries.map id :=
          List.map_congr_left fun entry hMem => Prod.ext rfl (h entry hMem).2
        _ = entries := List.map_id entries

/-! ## Whole values -/

/-- Only below a marked key stand values that are exported under one. -/
theorem Loaded.deferred_of_isMarked {marker : String} {deferred : Bool} {value : Value}
    (h : Loaded marker deferred value) (hMarked : value.isMarked = true) : deferred = true := by
  cases h with
  | expression => rfl
  | list hItems =>
    -- a list shows the expressions among its items
    obtain ⟨item, hMem, hItem⟩ := List.any_eq_true.mp hMarked
    cases hItems item hMem with
    | expression => rfl
    | _ => cases hItem
  | _ => cases hMarked

/-- The exported key tells loading at most what was known of the entry. -/
theorem marked_of_exportKey {marker : String} {entry : String × Value} {marked : Bool}
    (hLoaded : Loaded marker marked entry.2)
    (hKey : marked = false → stripMarker? marker entry.1 = none)
    (h : (stripMarker? marker (Value.exportKey marker entry.1 entry.2)).isSome = true) :
    marked = true := by
  cases hMarked : entry.2.isMarked with
  | true => exact hLoaded.deferred_of_isMarked hMarked
  | false =>
    -- an unmarked entry is exported under the key it has
    rw [exportKey_of_not_isMarked hMarked] at h
    by_contra hNot
    rw [hKey (Bool.eq_false_iff.mpr hNot)] at h
    cases h

/-- Of an entry that keeps its key the exported one says whether the marker reaches
its value. -/
theorem keepsEntry_iff {marker : String} (hMarker : marker ≠ "") {entry : String × Value} :
    KeepsEntry marker entry.1 entry.2 ↔ KeepsKey marker entry ∧
      ((stripMarker? marker (Value.exportKey marker entry.1 entry.2)).isSome = false →
        ¬entry.2.HasBareExpression) := by
  unfold KeepsEntry KeepsKey
  cases hMarked : entry.2.isMarked with
  | true =>
    -- exported with the marker, the entry keeps its key and its value has the marker
    rw [exportKey_of_isMarked hMarked, stripMarker?_append hMarker]
    exact iff_of_true (Or.inl rfl) ⟨Or.inl rfl, nofun⟩
  | false =>
    -- exported without it, the key must not end in it, and the value does without
    rw [exportKey_of_not_isMarked hMarked]
    constructor
    · rintro (h | ⟨hPlain, hBare⟩)
      · cases h
      · exact ⟨Or.inr hPlain, fun _ => hBare⟩
    · rintro ⟨h | hPlain, hBare⟩
      · cases h
      · refine Or.inr ⟨hPlain, hBare ?_⟩
        rw [hPlain]
        rfl

/-- Every loaded value can be loaded again from its export, as long as no marker
reaches it that did not before; and it comes back exactly when its entries keep what
they are and the marker still reaches its expressions. -/
theorem exists_reload {marker : String} (hMarker : marker ≠ "") {deferred : Bool} {value : Value}
    (h : Loaded marker deferred value) :
    ∀ flag : Bool, (flag = true → deferred = true) →
      ∃ again, (value.toDocument marker).toValue marker flag = .ok again ∧
        (again = value ↔
          Exportable marker value ∧ (flag = false → ¬value.HasBareExpression)) := by
  induction h with
  -- these come back with the marker or without it
  | null | bool | long =>
    exact fun flag _ => ⟨_, rfl, iff_of_true rfl ⟨nofun, fun _ => nofun⟩⟩
  | @double deferred x hFinite =>
    intro flag _
    have hDocument : (Value.double x).toDocument marker = .decimal ⟨x, hFinite⟩ :=
      dif_pos hFinite
    rw [hDocument]
    exact ⟨_, rfl, iff_of_true rfl ⟨nofun, fun _ => nofun⟩⟩
  | string s =>
    intro flag hFlag
    cases flag with
    | true =>
      -- a text was not below a marked key, so it is not now
      cases hFlag rfl
    | false => exact ⟨_, rfl, iff_of_true rfl ⟨nofun, fun _ => nofun⟩⟩
  | @expression e hParse =>
    intro flag _
    rw [toDocument_expression, Document.toValue]
    cases flag with
    | true =>
      rw [if_pos rfl, hParse]
      exact ⟨_, rfl, iff_of_true rfl ⟨nofun, nofun⟩⟩
    | false =>
      -- without the marker the text of the expression stays a text
      refine ⟨_, rfl, iff_of_false nofun fun hBack => ?_⟩
      exact hBack.2 rfl (.expression e)
  | @list deferred items _ ih =>
    intro flag hFlag
    have hItems := fun item hMem => ih item hMem flag hFlag
    choose! again hAgain using hItems
    -- the items are exported and loaded with the flag of the list
    have hValues : Document.toValues marker flag (Value.toDocuments marker items) =
        .ok (items.map again) := by
      rw [toValues_eq_collect, toDocuments_eq_map, collect_eq_ok_iff, List.map_map, List.map_map]
      exact List.map_congr_left fun item hMem => (hAgain item hMem).1
    refine ⟨.list (items.map again), ?_, ?_⟩
    · rw [Value.toDocument, Document.toValue, hValues]
    · rw [exportable_list, hasBareExpression_list, Value.list.injEq]
      constructor
      · -- a list that comes back has items that do
        intro hSame
        have hBack : ∀ item ∈ items, again item = item := by
          intro item hMem
          have hMap : items.map again = items.map id := by rw [hSame, List.map_id]
          exact List.map_inj_left.mp hMap item hMem
        refine ⟨fun item hMem => ((hAgain item hMem).2.mp (hBack item hMem)).1, ?_⟩
        rintro hPlain ⟨item, hMem, hBare⟩
        exact ((hAgain item hMem).2.mp (hBack item hMem)).2 hPlain hBare
      · -- items that come back make up the list
        rintro ⟨hExportable, hPlain⟩
        calc
          items.map again = items.map id := List.map_congr_left fun item hMem =>
            (hAgain item hMem).2.mpr ⟨hExportable item hMem,
              fun hFlag hBare => hPlain hFlag ⟨item, hMem, hBare⟩⟩
          _ = items := List.map_id items
  | @map deferred entries marked hOrdered hLoaded hMarked ih =>
    intro flag _
    -- the flag of an entry is what its exported key says, not what the loaded one said
    have hEntries := fun entry hMem => ih entry hMem _
      (marked_of_exportKey (hLoaded entry hMem) (hMarked entry hMem))
    choose! again hAgain using hEntries
    have hLoads : ∀ entry ∈ entries, loadEntry marker (exportEntry marker entry) =
        .ok (reloadedKey marker entry, again entry) := by
      intro entry hMem
      have hValue := (hAgain entry hMem).1
      rw [loadEntry, exportEntry]
      dsimp only
      rw [hValue]
      rfl
    obtain ⟨reloaded, hReloaded, hSame⟩ := reload_entries hMarker hOrdered hLoads
    refine ⟨.map reloaded, ?_, ?_⟩
    · rw [Value.toDocument, Document.toValue, hReloaded]
    · rw [Value.map.injEq, hSame, exportable_map]
      -- what reloading asks of an entry is what exporting asks of it
      have hEntry : ∀ entry ∈ entries, (KeepsKey marker entry ∧ again entry = entry.2 ↔
          KeepsEntry marker entry.1 entry.2 ∧ Exportable marker entry.2) := by
        intro entry hMem
        rw [keepsEntry_iff hMarker, (hAgain entry hMem).2, and_assoc]
        exact and_congr_right fun _ => and_comm
      constructor
      · intro hBack
        exact ⟨fun entry hMem => (hEntry entry hMem).mp (hBack entry hMem), fun _ => nofun⟩
      · rintro ⟨hExportable, -⟩ entry hMem
        exact (hEntry entry hMem).mpr (hExportable entry hMem)

/-! ## Stores -/

/-- The tree of a loaded store is a loaded value. -/
theorem loaded_root {s loaded : Store} {document : Document} (h : s.load document = .ok loaded) :
    Loaded s.marker false (.map loaded.root) ∧ loaded.marker = s.marker := by
  unfold Store.load at h
  split at h
  · cases h
  · next root hRoot =>
    cases h
    exact ⟨loaded_of_toValue document hRoot, rfl⟩
  · cases h
    -- null is loaded as an empty tree
    have hEmpty : LoadedEntries s.marker [] := ⟨List.Pairwise.nil, nofun⟩
    exact ⟨hEmpty.map false, rfl⟩
  · cases h

/-- **The export of a loaded tree can always be loaded, and gives the tree back
exactly when it is exportable**: when every entry, at every depth, is exported under
a marked key, or has a key without the marker and no expression in need of it. -/
theorem reload_eq_iff {s loaded : Store} {document : Document} (hMarker : s.marker ≠ "")
    (h : s.load document = .ok loaded) :
    ∃ again, s.load loaded.toDocument = .ok again ∧
      (again.root = loaded.root ↔ Exportable s.marker (.map loaded.root)) := by
  obtain ⟨hLoaded, hSameMarker⟩ := loaded_root h
  -- no marker reaches the root
  obtain ⟨value, hValue, hBack⟩ := exists_reload hMarker hLoaded false nofun
  -- the tree is exported with the marker it was loaded with
  have hDocument : loaded.toDocument.toValue s.marker false = .ok value := by
    rw [Store.toDocument, hSameMarker]
    exact hValue
  rw [Value.toDocument, Document.toValue] at hValue
  split at hValue
  · next root hRoot =>
    cases hValue
    refine ⟨{ s with root, comments := [] }, by rw [Store.load, hDocument], ?_⟩
    rw [Value.map.injEq] at hBack
    exact hBack.trans (and_iff_left fun _ => nofun)
  · cases hValue

/-- A sum under a marked key and a plain text. -/
def sumDocument : Document :=
  .object [("sum$", .string "1 + 1"), ("text", .string "1 + 1")]

def sumExpression : Expression :=
  ⟨"1 + 1", .binary .add (.literal (.long 1)) (.literal (.long 1))⟩

def sumStore : Store :=
  .ofRoot [("sum", .expression sumExpression), ("text", .string "1 + 1")]

theorem sumStore_exportable : Exportable "$" (.map sumStore.root) := by
  rw [exportable_map]
  intro entry hMem
  rcases List.mem_cons.mp hMem with rfl | hMem
  · exact ⟨Or.inl rfl, nofun⟩
  · rw [List.mem_singleton.mp hMem]
    exact ⟨Or.inr ⟨rfl, nofun⟩, nofun⟩

theorem sumStore_reloaded :
    Store.empty.marker ≠ "" ∧ Store.empty.load sumDocument = .ok sumStore ∧
      ∃ again, Store.empty.load sumStore.toDocument = .ok again ∧ again.root = sumStore.root := by
  have hMarker : Store.empty.marker ≠ "" := by decide
  have hLoad : Store.empty.load sumDocument = .ok sumStore := rfl
  obtain ⟨again, hAgain, hSame⟩ := reload_eq_iff hMarker hLoad
  exact ⟨hMarker, hLoad, again, hAgain, hSame.mpr sumStore_exportable⟩

/-- A sum in a list of lists, which is exported under a key without the marker. -/
def nestedSumDocument : Document :=
  .object [("a$", .array [.array [.string "1 + 1"]])]

/-- A number under a key with two markers, which loses one each time it is loaded. -/
def twiceMarkedDocument : Document :=
  .object [("a$$", .integer 5)]

/-- Not every loaded tree comes back: a nested expression comes back as a text, and
an entry whose key still ends in the marker comes back under another one. -/
theorem reload_loses_marks :
    (∃ loaded again, Store.empty.load nestedSumDocument = .ok loaded ∧
      Store.empty.load loaded.toDocument = .ok again ∧
      loaded.root = [("a", .list [.list [.expression sumExpression]])] ∧
      again.root = [("a", .list [.list [.string "1 + 1"]])] ∧ again.root ≠ loaded.root) ∧
    ∃ loaded again, Store.empty.load twiceMarkedDocument = .ok loaded ∧
      Store.empty.load loaded.toDocument = .ok again ∧ loaded.root = [("a$", .long 5)] ∧
      again.root = [("a", .long 5)] ∧ again.root ≠ loaded.root :=
  ⟨⟨.ofRoot [("a", .list [.list [.expression sumExpression]])],
      .ofRoot [("a", .list [.list [.string "1 + 1"]])], rfl, rfl, rfl, rfl, nofun⟩,
    ⟨.ofRoot [("a$", .long 5)], .ofRoot [("a", .long 5)], rfl, rfl, rfl, rfl, fun h =>
      absurd (congrArg Prod.fst (List.cons.inj h).1) (by decide : "a" ≠ "a$")⟩⟩

end TypedConfig
