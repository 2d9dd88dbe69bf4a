import TypedConfig.Proofs.Settling
import TypedConfig.Proofs.Store.Order

/-!
# Sets that are exported as lists

A set and the list of the same items have the same document, but not the same key: an entry
is exported under a marked key when it is an expression or a list with one among its items,
and a set is not looked into. So a tree is exported like the one with lists in the place of
its sets as long as no entry of a map is a set with an expression in it. Where one is, its
expressions become texts without a marker, and loading makes texts of them.

Sets that are items of lists or other sets do not matter, whatever is in them, because the
marker of a list looks no further than its items either.

The other way round it takes keys that cannot be mistaken for marked ones. Under the keys
`a`, `a$` and `a$$` a list and a set of the same expressions and a number have one document,
whether the set is a list or not, because each entry is overwritten by the next.

Main results:

* `Value.isMarked_asLists` — what a list in the place of a set does to the key.
* `Value.exportEntry_eq_of_toDocument_eq` — the document of a map tells its entries apart.
* `Store.exported_like_lists` — when a tree is exported like its lists.
-/

namespace TypedConfig

namespace Value

/-! ## Lists in the place of sets -/

mutual

/-- The value with a list of the same items in the place of every set, at every depth. -/
def asLists : Value → Value
  | list items | set items => .list (itemsAsLists items)
  | map entries => .map (entriesAsLists entries)
  | v => v
termination_by structural v => v

/-- The items with lists in the place of sets. -/
def itemsAsLists : List Value → List Value
  | [] => []
  | item :: rest => asLists item :: itemsAsLists rest
termination_by structural items => items

/-- The entries with lists in the place of sets. -/
def entriesAsLists : List (String × Value) → List (String × Value)
  | [] => []
  | (key, v) :: rest => (key, asLists v) :: entriesAsLists rest
termination_by structural entries => entries

end

theorem itemsAsLists_eq_map (items : List Value) : itemsAsLists items = items.map asLists := by
  induction items with
  | nil => rfl
  | cons item rest ih => rw [itemsAsLists, ih, List.map_cons]

theorem entriesAsLists_eq_map (entries : Dict Value) :
    entriesAsLists entries = entries.map (Prod.map id asLists) := by
  induction entries with
  | nil => rfl
  | cons entry rest ih => rw [entriesAsLists, ih, List.map_cons, Prod.map, id]

theorem asLists_of_not_isContainer {v : Value} (h : v.isContainer = false) : v.asLists = v := by
  cases v with
  | list | set | map => cases h
  | _ => rfl

theorem isExpression_asLists (v : Value) : v.asLists.isExpression = v.isExpression := by
  cases v <;> rfl

/-- The value is a set with an expression among its items. -/
def isExpressionSet : Value → Bool
  | set items => items.any isExpression
  | _ => false

theorem any_isExpression_itemsAsLists (items : List Value) :
    (itemsAsLists items).any isExpression = items.any isExpression := by
  rw [itemsAsLists_eq_map, List.any_map]
  exact congrArg items.any (funext isExpression_asLists)

/-- A list in the place of a set is marked for its expressions, while the set is not. -/
theorem isMarked_asLists (v : Value) : v.asLists.isMarked = (v.isMarked || v.isExpressionSet) := by
  cases v with
  | list items => exact (any_isExpression_itemsAsLists items).trans (Bool.or_false _).symm
  | set items => exact any_isExpression_itemsAsLists items
  | _ => rfl

/-- No entry of the map is a set with an expression in it. -/
def SetsPlain (entries : Dict Value) : Prop :=
  ∀ entry ∈ entries, entry.2.isExpressionSet = false

variable {marker : String} {entries : Dict Value}

/-! ## Entries and their keys -/

theorem exportKey_asLists {key : String} {v : Value} (h : v.isExpressionSet = false) :
    exportKey marker key v.asLists = exportKey marker key v := by
  rw [exportKey, exportKey, isMarked_asLists, h, Bool.or_false]

/-- Of a set with an expression in it the key says that it is no list. -/
theorem exportKey_asLists_eq_iff (hMarker : marker ≠ "") {key : String} {v : Value} :
    exportKey marker key v.asLists = exportKey marker key v ↔ v.isExpressionSet = false := by
  refine ⟨fun hKey => ?_, exportKey_asLists⟩
  cases hSet : v.isExpressionSet with
  | false => rfl
  | true =>
    -- its list shows the expression, so the key would get the marker,
    have hMarked : v.asLists.isMarked = true := by rw [isMarked_asLists, hSet, Bool.or_true]
    -- which it does not get for the set
    have hUnmarked : v.isMarked = false := by
      cases v with
      | set items => rfl
      | _ => cases hSet
    rw [exportKey_of_isMarked hMarked, exportKey_of_not_isMarked hUnmarked,
      String.append_eq_left_iff] at hKey
    exact absurd hKey hMarker

/-- No key of the map is another one with the marker at its end. -/
def KeysApart (marker : String) (entries : Dict Value) : Prop :=
  ∀ entry ∈ entries, ∀ other ∈ entries, entry.1 ≠ other.1 ++ marker

/-- Keys that lie apart stay so, whatever values are exported under them. -/
theorem KeysApart.eq_of_exportKey_eq (hApart : KeysApart marker entries) {a b : String × Value}
    (ha : a ∈ entries) (hb : b ∈ entries) {v w : Value}
    (hKey : exportKey marker a.1 v = exportKey marker b.1 w) : a.1 = b.1 := by
  unfold exportKey at hKey
  -- with the marker behind both keys, one of them or none
  split at hKey <;> split at hKey
  · exact (String.append_left_inj marker).mp hKey
  · exact absurd hKey.symm (hApart b hb a ha)
  · exact absurd hKey (hApart a ha b hb)
  · exact hKey

/-- Entries whose keys lie apart are exported under different keys, with other values as well. -/
theorem KeysApart.nodup_exported (hApart : KeysApart marker entries)
    (hKeys : (entries.map Prod.fst).Nodup) (f : Value → Value) :
    (((entries.map (Prod.map id f)).map (exportEntry marker)).map Prod.fst).Nodup := by
  rw [List.map_map, List.map_map]
  refine hKeys.of_map.map_on fun a ha b hb hKey => ?_
  exact Dict.eq_of_key_eq hKeys ha hb (hApart.eq_of_exportKey_eq ha hb hKey)

/-! ## Whole maps -/

/-- A map is exported with its entries as they are exported one by one. -/
theorem toDocument_map (marker : String) (entries : Dict Value) :
    (Value.map entries).toDocument marker =
      .object (Dict.ofList (entries.map (exportEntry marker))) :=
  congrArg Document.object (exportEntries_eq_insertAll marker entries [])

/-- Other values change nothing in the document of a map if they change no exported entry. -/
theorem toDocument_map_congr {f : Value → Value}
    (hEntries : ∀ entry ∈ entries,
      exportEntry marker (entry.map id f) = exportEntry marker entry) :
    (Value.map (entries.map (Prod.map id f))).toDocument marker =
      (Value.map entries).toDocument marker := by
  rw [toDocument_map, toDocument_map, List.map_map]
  exact congrArg (fun exported => Document.object (Dict.ofList exported))
    (List.map_congr_left hEntries)

/-- From the document of a map whose keys lie apart it can be told what became of each entry. -/
theorem exportEntry_eq_of_toDocument_eq (hOrdered : entries.Ordered)
    (hApart : KeysApart marker entries) {f : Value → Value}
    (hSame : (Value.map (entries.map (Prod.map id f))).toDocument marker =
      (Value.map entries).toDocument marker) :
    ∀ entry ∈ entries, exportEntry marker (entry.map id f) = exportEntry marker entry := by
  rw [toDocument_map, toDocument_map, Document.object.injEq] at hSame
  -- both documents hold what their entries are exported as, sorted
  have hOld := Dict.ofList_perm (List.map_id entries ▸ hApart.nodup_exported hOrdered.nodup_keys id)
  have hNew := Dict.ofList_perm (hApart.nodup_exported hOrdered.nodup_keys f)
  rw [hSame] at hNew
  intro entry hMem
  -- the new entry is an old one, and its key shows that it comes from the same one
  have hExported : exportEntry marker (entry.map id f) ∈ entries.map (exportEntry marker) := by
    refine (hOld.symm.trans hNew).mem_iff.mpr ?_
    exact List.mem_map_of_mem (List.mem_map_of_mem hMem)
  obtain ⟨origin, hOrigin, hEntry⟩ := List.mem_map.mp hExported
  have hKey : origin.1 = entry.1 :=
    hApart.eq_of_exportKey_eq hOrigin hMem (congrArg Prod.fst hEntry)
  rw [← hEntry, Dict.eq_of_key_eq hOrdered.nodup_keys hOrigin hMem hKey]

/-! ## Whole values -/

theorem toDocument_list (marker : String) (items : List Value) :
    (Value.list items).toDocument marker = .array (items.map (toDocument marker)) :=
  congrArg Document.array (toDocuments_eq_map marker items)

/-- A list is exported like its lists if all its items are. -/
theorem toDocument_asLists_list_iff {items : List Value} :
    (Value.list items).asLists.toDocument marker = (Value.list items).toDocument marker ↔
      ∀ item ∈ items, item.asLists.toDocument marker = item.toDocument marker := by
  rw [asLists, toDocument_list, toDocument_list, itemsAsLists_eq_map, List.map_map,
    Document.array.injEq]
  exact List.map_inj_left

/-- Without expressions in its sets a value is exported like its lists. -/
theorem toDocument_asLists {v : Value} (hPlain : v.EveryMap SetsPlain) :
    v.asLists.toDocument marker = v.toDocument marker := by
  induction v using containerInduction with
  | leaf v hLeaf => rw [asLists_of_not_isContainer hLeaf]
  | list items ih =>
    exact toDocument_asLists_list_iff.mpr fun item hMem =>
      ih item hMem (everyMap_list.mp hPlain item hMem)
  | set items ih =>
    -- the document of a set is that of the list of its items
    exact toDocument_asLists_list_iff.mpr fun item hMem =>
      ih item hMem (everyMap_set.mp hPlain item hMem)
  | map entries ih =>
    obtain ⟨hHere, hEntries⟩ := everyMap_map.mp hPlain
    rw [asLists, entriesAsLists_eq_map]
    -- entry by entry: the key because no set asks for a marker, the document by induction
    refine toDocument_map_congr fun entry hMem => ?_
    exact Prod.ext (exportKey_asLists (hHere entry hMem)) (ih entry hMem (hEntries entry hMem))

/-- Where keys cannot be mistaken for marked ones, expressions in a set show in the document. -/
theorem setsPlain_of_toDocument_asLists (hMarker : marker ≠ "") {v : Value} (hOrder : v.InOrder)
    (hApart : v.EveryMap (KeysApart marker))
    (hSame : v.asLists.toDocument marker = v.toDocument marker) : v.EveryMap SetsPlain := by
  induction v using containerInduction with
  | leaf v hLeaf => exact everyMap_of_not_isContainer hLeaf
  | list items ih =>
    have hItems := toDocument_asLists_list_iff.mp hSame
    exact everyMap_list.mpr fun item hMem => ih item hMem (everyMap_list.mp hOrder item hMem)
      (everyMap_list.mp hApart item hMem) (hItems item hMem)
  | set items ih =>
    have hItems := toDocument_asLists_list_iff.mp hSame
    exact everyMap_set.mpr fun item hMem => ih item hMem (everyMap_set.mp hOrder item hMem)
      (everyMap_set.mp hApart item hMem) (hItems item hMem)
  | map entries ih =>
    obtain ⟨hOrdered, hOrder⟩ := everyMap_map.mp hOrder
    obtain ⟨hApartHere, hApart⟩ := everyMap_map.mp hApart
    rw [asLists, entriesAsLists_eq_map] at hSame
    -- the entries are told apart by their keys, so each was exported as it is with lists
    have hEntries := exportEntry_eq_of_toDocument_eq hOrdered hApartHere hSame
    refine everyMap_map.mpr ⟨fun entry hMem => ?_, fun entry hMem => ?_⟩
    · exact (exportKey_asLists_eq_iff hMarker).mp (congrArg Prod.fst (hEntries entry hMem))
    · exact ih entry hMem (hOrder entry hMem) (hApart entry hMem)
        (congrArg Prod.snd (hEntries entry hMem))

end Value

/-! ## Stores -/

namespace Store

/-- The store with lists in the place of the sets in its tree. -/
def asLists (s : Store) : Store :=
  { s with root := Value.entriesAsLists s.root }

/-- **A tree is exported like the one with lists in the place of its sets** as long as no entry of
a map, at any depth, is a set with an expression in it. Where the maps are in order and no key is
another one of its map with the marker behind it, an expression in such a set always shows: the
list has a marked key, and the set has not. -/
theorem exported_like_lists (s : Store) :
    ((Value.map s.root).EveryMap Value.SetsPlain → s.asLists.toDocument = s.toDocument) ∧
      (s.marker ≠ "" → s.InOrder → (Value.map s.root).EveryMap (Value.KeysApart s.marker) →
        (s.asLists.toDocument = s.toDocument ↔ (Value.map s.root).EveryMap Value.SetsPlain)) := by
  refine ⟨Value.toDocument_asLists, fun hMarker hOrder hApart => ?_⟩
  exact ⟨Value.setsPlain_of_toDocument_asLists hMarker hOrder hApart, Value.toDocument_asLists⟩

/-- A job with its ports, as a set, and sums, one of them in a set as well. -/
def jobEntries : Dict Value :=
  [("ports", .set [.long 80]),
    ("sums", .list [.expression sumExpression, .set [.expression sumExpression]])]

def jobsStore : Store :=
  .ofRoot [("jobs", .set [.map jobEntries])]

theorem everyMap_jobsStore {P : Dict Value → Prop} (hRoot : P jobsStore.root)
    (hJob : P jobEntries) : (Value.map jobsStore.root).EveryMap P := by
  have hPort : (Value.long 80).EveryMap P := Value.everyMap_of_not_isContainer rfl
  have hSum : (Value.expression sumExpression).EveryMap P := Value.everyMap_of_not_isContainer rfl
  have hEntries : (Value.map jobEntries).EveryMap P := by
    refine Value.everyMap_map.mpr ⟨hJob, ?_⟩
    simp [jobEntries, Value.everyMap_set, Value.everyMap_list, hPort, hSum]
  refine Value.everyMap_map.mpr ⟨hRoot, ?_⟩
  simp [jobsStore, ofRoot, Value.everyMap_set, hEntries]

/-- The sums of the job have a marked key in both documents, and its ports in neither. The set among
the sums makes no difference, although there is an expression in it. -/
theorem jobsStore_exported :
    (Value.map jobsStore.root).EveryMap Value.SetsPlain ∧ jobsStore.marker ≠ "" ∧
      jobsStore.InOrder ∧ (Value.map jobsStore.root).EveryMap (Value.KeysApart jobsStore.marker) ∧
      jobsStore.asLists.toDocument = jobsStore.toDocument ∧
      jobsStore.toDocument = .object [("jobs", .array [.object [("ports", .array [.integer 80]),
        ("sums$", .array [.string "1 + 1", .array [.string "1 + 1"]])]])] := by
  have hMarker : jobsStore.marker ≠ "" := by decide
  have hPlain : (Value.map jobsStore.root).EveryMap Value.SetsPlain := by
    refine everyMap_jobsStore ?_ ?_ <;> unfold Value.SetsPlain <;> decide
  have hOrder : jobsStore.InOrder :=
    everyMap_jobsStore (List.pairwise_singleton ..) (List.pairwise_pair.mpr (by decide))
  have hApart : (Value.map jobsStore.root).EveryMap (Value.KeysApart jobsStore.marker) := by
    refine everyMap_jobsStore ?_ ?_ <;> unfold Value.KeysApart <;> decide
  obtain ⟨hSame, hIff⟩ := exported_like_lists jobsStore
  exact ⟨(hIff hMarker hOrder hApart).mp (hSame hPlain), hMarker, hOrder, hApart, hSame hPlain, rfl⟩

/-- A sum in a set, under a key of its own. -/
def sumSetStore : Store :=
  .ofRoot [("sums", .set [.expression sumExpression])]

/-- The sum in a set is exported without a marker, and the one in a list with it. -/
theorem set_exported_unmarked :
    sumSetStore.marker ≠ "" ∧
      sumSetStore.asLists.root = [("sums", .list [.expression sumExpression])] ∧
      sumSetStore.toDocument = .object [("sums", .array [.string "1 + 1"])] ∧
      sumSetStore.asLists.toDocument = .object [("sums$", .array [.string "1 + 1"])] ∧
      sumSetStore.asLists.toDocument ≠ sumSetStore.toDocument := by
  refine ⟨by decide, rfl, rfl, rfl, fun hSame => ?_⟩
  -- the documents differ in the key of their only entry
  have hEntries := Document.object.inj hSame
  exact absurd (congrArg Prod.fst (List.cons.inj hEntries).1) (by decide : "sums$" ≠ "sums")

end Store

end TypedConfig
