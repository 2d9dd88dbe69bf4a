import TypedConfig.Proofs.Store.Reloading

/-!
# Documents that come back

Exporting undoes loading on documents that are written as an export is: numbers
that fit, and a marker only on keys that need it. A marked key needs its marker
when it holds a text or an array with a text among its items, and it can be told
from all other keys of its object once the marker is gone.

Loading hands the marker down through arrays and exporting looks for it at the
entry alone, so the flag is a parameter of the induction, while what an entry is
exported under is settled entry by entry: the loaded entries, exported one by one,
are the entries of the object.

Main results:

* `LoadedFrom.ofArray` / `LoadedFrom.ofObject` — containers come back when their
  items and entries do.
* `exists_loadedFrom` — every canonical document is loaded as a value it is the export
  of, with the marker or without.
* `export_load_of_canonical` — the same for stores.
-/

namespace TypedConfig

/-! ## Canonical documents -/

/-- The key is another one with the marker behind it. -/
def EndsIn (marker key : String) : Prop :=
  ∃ front, key = front ++ marker

theorem stripMarker?_eq_none_iff {marker key : String} (hMarker : marker ≠ "") :
    stripMarker? marker key = none ↔ ¬EndsIn marker key := by
  constructor
  · rintro hNone ⟨front, rfl⟩
    rw [stripMarker?_append hMarker] at hNone
    cases hNone
  · intro hPlain
    cases hStrip : stripMarker? marker key with
    | none => rfl
    | some front => exact absurd ⟨front, eq_append_of_stripMarker? hStrip⟩ hPlain

namespace Document

/-- The document is the other one, or stands in it at some depth. -/
inductive Inside (inner : Document) : Document → Prop
  | self : Inside inner inner
  | item {items : List Document} {item : Document} :
      item ∈ items → Inside inner item → Inside inner (.array items)
  | entry {entries : Dict Document} {entry : String × Document} :
      entry ∈ entries → Inside inner entry.2 → Inside inner (.object entries)

/-- The document is the text, or an array in which it stands, in an array of arrays
as well, but not in an object. -/
inductive HasText : Document → String → Prop
  | string (s : String) : HasText (.string s) s
  | item {items : List Document} {item : Document} {s : String} :
      item ∈ items → HasText item s → HasText (.array items) s

/-- The document is a text or an array with one among its items. -/
def ShowsText (d : Document) : Prop :=
  ∃ s, d = .string s ∨ ∃ items, d = .array items ∧ .string s ∈ items

/-- All texts outside of objects are expressions. -/
def TextsParse (d : Document) : Prop :=
  ∀ s, d.HasText s → ∃ e, Expression.parse s = .ok e

/-- The entry of an object needs the marker of its key, if it has one, and no other
entry has the key without it. -/
def CanonicalEntry (marker : String) (entries : Dict Document) (entry : String × Document) :
    Prop :=
  ¬EndsIn marker entry.1 ∨
    ∃ key, entry.1 = key ++ marker ∧ ¬EndsIn marker key ∧ key ∉ entries.map Prod.fst ∧
      entry.2.ShowsText ∧ entry.2.TextsParse

/-- A document as exporting writes it, at every depth: whole numbers have 64 bits, and
objects have their entries in order and mark those that need it. -/
structure Canonical (marker : String) (d : Document) : Prop where
  numbers : ∀ n, ¬Inside (.natural n) d
  ordered : ∀ entries : Dict Document, Inside (.object entries) d → entries.Ordered
  marked : ∀ entries : Dict Document, Inside (.object entries) d →
    ∀ entry ∈ entries, CanonicalEntry marker entries entry

namespace Canonical

variable {marker : String} {items : List Document} {entries : Dict Document}

theorem array_iff :
    Canonical marker (.array items) ↔ ∀ item ∈ items, Canonical marker item := by
  constructor
  -- what is inside an item is inside the array
  · intro h item hMem
    exact ⟨fun n hInside => h.numbers n (.item hMem hInside),
      fun inside hInside => h.ordered inside (.item hMem hInside),
      fun inside hInside => h.marked inside (.item hMem hInside)⟩
  · intro h
    refine ⟨fun n hInside => ?_, fun inside hInside => ?_, fun inside hInside => ?_⟩
    · cases hInside with
      | item hMem hInside => exact (h _ hMem).numbers n hInside
    · cases hInside with
      | item hMem hInside => exact (h _ hMem).ordered inside hInside
    · cases hInside with
      | item hMem hInside => exact (h _ hMem).marked inside hInside

theorem object_iff :
    Canonical marker (.object entries) ↔
      entries.Ordered ∧ (∀ entry ∈ entries, CanonicalEntry marker entries entry) ∧
        ∀ entry ∈ entries, Canonical marker entry.2 := by
  constructor
  · intro h
    -- the entries of the object itself, and what is inside each of them
    exact ⟨h.ordered entries .self, h.marked entries .self, fun entry hMem =>
      ⟨fun n hInside => h.numbers n (.entry hMem hInside),
        fun inside hInside => h.ordered inside (.entry hMem hInside),
        fun inside hInside => h.marked inside (.entry hMem hInside)⟩⟩
  · rintro ⟨hOrdered, hMarked, h⟩
    refine ⟨fun n hInside => ?_, fun inside hInside => ?_, fun inside hInside => ?_⟩
    · cases hInside with
      | entry hMem hInside => exact (h _ hMem).numbers n hInside
    · cases hInside with
      | self => exact hOrdered
      | entry hMem hInside => exact (h _ hMem).ordered inside hInside
    · cases hInside with
      | self => exact hMarked
      | entry hMem hInside => exact (h _ hMem).marked inside hInside

theorem string (s : String) : Canonical marker (.string s) :=
  ⟨nofun, nofun, nofun⟩

end Canonical

end Document

/-! ## Entries -/

/-- The key an entry of an object is loaded under. -/
def loadedKey (marker key : String) : String :=
  (stripMarker? marker key).getD key

section
variable {marker key : String} {entries : Dict Document} {entry : String × Document} {v : Value}

theorem loadedKey_append (hMarker : marker ≠ "") (key : String) :
    loadedKey marker (key ++ marker) = key := by
  rw [loadedKey, stripMarker?_append hMarker, Option.getD_some]

theorem loadedKey_of_not_endsIn (hMarker : marker ≠ "") (h : ¬EndsIn marker key) :
    loadedKey marker key = key := by
  rw [loadedKey, (stripMarker?_eq_none_iff hMarker).mpr h, Option.getD_none]

/-- Different entries are loaded under different keys. -/
theorem nodup_loadedKeys (hMarker : marker ≠ "") (hOrdered : entries.Ordered)
    (h : ∀ entry ∈ entries, Document.CanonicalEntry marker entries entry) :
    (entries.map fun entry => loadedKey marker entry.1).Nodup := by
  -- keys that are loaded alike are one key
  refine List.Nodup.map_on (fun a ha b hb hSame => ?_) hOrdered.nodup_keys.of_map
  refine Dict.eq_of_key_eq hOrdered.nodup_keys ha hb ?_
  rcases h a ha with hPlain | ⟨bare, hKey, -, hNew, -⟩
  · rw [loadedKey_of_not_endsIn hMarker hPlain] at hSame
    rcases h b hb with hPlain' | ⟨bare', hKey', -, hNew', -⟩
    · rw [hSame, loadedKey_of_not_endsIn hMarker hPlain']
    · -- the plain key is the other one without its marker
      rw [hKey', loadedKey_append hMarker] at hSame
      exact absurd (List.mem_map.mpr ⟨a, ha, hSame⟩) hNew'
  · -- a marked key is no key of the object once it has lost the marker
    rw [hKey, loadedKey_append hMarker] at hSame
    rcases h b hb with hPlain' | ⟨bare', hKey', -⟩
    · rw [loadedKey_of_not_endsIn hMarker hPlain'] at hSame
      exact absurd (List.mem_map.mpr ⟨b, hb, hSame.symm⟩) hNew
    · rw [hKey', loadedKey_append hMarker] at hSame
      rw [hKey, hKey', hSame]

theorem isExpression_of_toValue {s : String}
    (h : (Document.string s).toValue marker true = .ok v) : v.isExpression = true := by
  rw [Document.toValue, if_pos rfl] at h
  split at h
  · cases h
    rfl
  · cases h

/-- Below a marked key a text becomes an expression, and shows at the entry. -/
theorem isMarked_of_toValue {d : Document} (hText : d.ShowsText)
    (h : d.toValue marker true = .ok v) : v.isMarked = true := by
  obtain ⟨s, rfl | ⟨items, rfl, hMem⟩⟩ := hText
  · -- the text itself has become an expression
    have hExpression := isExpression_of_toValue h
    cases v with
    | expression e => rfl
    | _ => cases hExpression
  · -- a text among the items has become one, and shows in the list
    rw [Document.toValue] at h
    split at h
    · next values hValues =>
      cases h
      rw [toValues_eq_collect, collect_eq_ok_iff] at hValues
      have hOutcome := List.mem_map_of_mem (f := Document.toValue marker true) hMem
      rw [hValues] at hOutcome
      obtain ⟨value, hValue, hSame⟩ := List.mem_map.mp hOutcome
      exact List.any_eq_true.mpr ⟨value, hValue, isExpression_of_toValue hSame.symm⟩
    · cases h

/-- A value that was loaded from the document of an entry is exported under its key. -/
theorem exportKey_loadedKey (hMarker : marker ≠ "")
    (hEntry : Document.CanonicalEntry marker entries entry)
    (h : entry.2.toValue marker (stripMarker? marker entry.1).isSome = .ok v) :
    Value.exportKey marker (loadedKey marker entry.1) v = entry.1 := by
  rcases hEntry with hPlain | ⟨bare, hKey, -, -, hText, -⟩
  · rw [(stripMarker?_eq_none_iff hMarker).mpr hPlain] at h
    -- without the marker there are no expressions
    have hMarked : v.isMarked = false := by
      by_contra hMarked
      exact absurd ((loaded_of_toValue _ h).deferred_of_isMarked (Bool.not_eq_false _ ▸ hMarked))
        Bool.false_ne_true
    rw [exportKey_of_not_isMarked hMarked, loadedKey_of_not_endsIn hMarker hPlain]
  · -- with the marker an expression shows, so the key gets its marker back
    rw [hKey, stripMarker?_append hMarker] at h
    rw [exportKey_of_isMarked (isMarked_of_toValue hText h), hKey, loadedKey_append hMarker]

end

/-- Loading sorts the entries of an object by other keys, and exporting sorts them back. -/
theorem exportEntries_ofList {marker : String} {entries : Dict Document}
    {pairs : List (String × Value)} (hOrdered : entries.Ordered)
    (hKeys : (pairs.map Prod.fst).Nodup) (hExported : pairs.map (exportEntry marker) = entries) :
    Value.exportEntries marker (Dict.ofList pairs) [] = entries := by
  -- exporting gives the entries of the object again, sorted by the keys they were loaded under
  have hPerm : ((Dict.ofList pairs).map (exportEntry marker)).Perm entries := by
    have hSorted := (Dict.ofList_perm hKeys).map (exportEntry marker)
    rwa [hExported] at hSorted
  have hNodup : (((Dict.ofList pairs).map (exportEntry marker)).map Prod.fst).Nodup :=
    ((hPerm.map Prod.fst).nodup_iff).mpr hOrdered.nodup_keys
  rw [exportEntries_eq_insertAll]
  -- the keys have only one order
  exact (Dict.ordered_ofList _).eq_of_perm hOrdered ((Dict.ofList_perm hNodup).trans hPerm)

/-! ## Values of documents -/

/-- The document is loaded as the value, below a marked key or not, and is its export;
the same holds of every entry in it. -/
structure LoadedFrom (marker : String) (deferred : Bool) (d : Document) (v : Value) : Prop where
  loaded : d.toValue marker deferred = .ok v
  exported : v.toDocument marker = d
  entries : ∀ entries : Dict Document, Document.Inside (.object entries) d →
    ∀ entry ∈ entries, ∃ value, v.HasEntry (loadedKey marker entry.1) value ∧
      entry.2.toValue marker (stripMarker? marker entry.1).isSome = .ok value ∧
      value.toDocument marker = entry.2

namespace LoadedFrom

variable {marker : String}

theorem ofArray {deferred : Bool} {items : List Document} {loaded : Document → Value}
    (h : ∀ item ∈ items, LoadedFrom marker deferred item (loaded item)) :
    LoadedFrom marker deferred (.array items) (.list (items.map loaded)) where
  loaded := by
    have hValues : Document.toValues marker deferred items = .ok (items.map loaded) := by
      rw [toValues_eq_collect, collect_eq_ok_iff, List.map_map]
      exact List.map_congr_left fun item hMem => (h item hMem).loaded
    rw [Document.toValue, hValues]
  exported := by
    rw [Value.toDocument, toDocuments_eq_map, List.map_map, Document.array.injEq]
    calc
      items.map (Value.toDocument marker ∘ loaded) = items.map id :=
        List.map_congr_left fun item hMem => (h item hMem).exported
      _ = items := List.map_id items
  entries inside hInside entry hEntry := by
    cases hInside with
    | item hMem hInside =>
      obtain ⟨value, hValue, hLoaded⟩ := (h _ hMem).entries inside hInside entry hEntry
      exact ⟨value, .listItem (List.mem_map_of_mem hMem) hValue, hLoaded⟩

theorem ofObject {entries : Dict Document} (hMarker : marker ≠ "") (deferred : Bool)
    (hOrdered : entries.Ordered)
    (hEntries : ∀ entry ∈ entries, Document.CanonicalEntry marker entries entry)
    {loaded : String × Document → Value}
    (h : ∀ entry ∈ entries,
      LoadedFrom marker (stripMarker? marker entry.1).isSome entry.2 (loaded entry)) :
    ∃ v, LoadedFrom marker deferred (.object entries) v := by
  -- the entries as they are loaded, in the order of the object
  obtain ⟨pairs, hPairs⟩ : ∃ pairs,
      pairs = entries.map fun entry => (loadedKey marker entry.1, loaded entry) := ⟨_, rfl⟩
  -- each entry is loaded,
  have hCollect : collect (loadEntry marker) entries = .ok pairs := by
    rw [collect_eq_ok_iff, hPairs, List.map_map]
    refine List.map_congr_left fun entry hMem => ?_
    rw [loadEntry, (h entry hMem).loaded]
    rfl
  -- and exported as it was,
  have hExported : pairs.map (exportEntry marker) = entries := by
    rw [hPairs, List.map_map]
    calc
      _ = entries.map id := List.map_congr_left fun entry hMem =>
        Prod.ext (exportKey_loadedKey hMarker (hEntries entry hMem) (h entry hMem).loaded)
          (h entry hMem).exported
      _ = entries := List.map_id entries
  -- no two of them under one key,
  have hKeys : (pairs.map Prod.fst).Nodup := by
    rw [hPairs, List.map_map]
    exact nodup_loadedKeys hMarker hOrdered hEntries
  -- and so all of them stand in the loaded map
  have hHolds : ∀ entry ∈ entries, (loadedKey marker entry.1, loaded entry) ∈ Dict.ofList pairs := by
    intro entry hMem
    rw [(Dict.ofList_perm hKeys).mem_iff, hPairs]
    exact List.mem_map.mpr ⟨entry, hMem, rfl⟩
  refine ⟨.map (Dict.ofList pairs), ?_, ?_, ?_⟩
  · rw [Document.toValue, toEntries_of_collect hCollect]
    rfl
  · rw [Value.toDocument, exportEntries_ofList hOrdered hKeys hExported]
  · intro inside hInside entry hEntry
    cases hInside with
    | self =>
      exact ⟨loaded entry, .here (hHolds entry hEntry), (h entry hEntry).loaded,
        (h entry hEntry).exported⟩
    | entry hMem hInside =>
      obtain ⟨value, hValue, hLoaded⟩ := (h _ hMem).entries inside hInside entry hEntry
      exact ⟨value, .deeper (hHolds _ hMem) hValue, hLoaded⟩

end LoadedFrom

mutual

/-- **A canonical document is loaded, and exported as it was.** Below a marked key its
texts have to be expressions. -/
theorem exists_loadedFrom {marker : String} (hMarker : marker ≠ "") {deferred : Bool}
    (d : Document) (hCanonical : d.Canonical marker) (hTexts : deferred = true → d.TextsParse) :
    ∃ v, LoadedFrom marker deferred d v := by
  cases d with
  | null => exact ⟨.null, rfl, rfl, nofun⟩
  | bool b => exact ⟨.bool b, rfl, rfl, nofun⟩
  | integer n => exact ⟨.long n, rfl, rfl, nofun⟩
  -- such a number would come back as a decimal
  | natural n => exact absurd .self (hCanonical.numbers n)
  | decimal x => exact ⟨.double x.value, rfl, dif_pos x.finite, nofun⟩
  | string s =>
    cases deferred with
    | false => exact ⟨.string s, rfl, rfl, nofun⟩
    | true =>
      obtain ⟨e, hParse⟩ := hTexts rfl s (.string s)
      -- the text is one of an expression, which keeps it as its source
      refine ⟨.expression e, ?_, ?_, nofun⟩
      · rw [Document.toValue, if_pos rfl, hParse]
      · rw [toDocument_expression, source_of_parse hParse]
  | array items =>
    have hItems := exists_loadedFrom_items hMarker items (Document.Canonical.array_iff.mp hCanonical)
      fun hDeferred item hMem s hText => hTexts hDeferred s (.item hMem hText)
    choose! loaded hLoaded using hItems
    exact ⟨_, .ofArray hLoaded⟩
  | object entries =>
    obtain ⟨hOrdered, hMarked, hValues⟩ := Document.Canonical.object_iff.mp hCanonical
    -- only a marked key asks its texts to be expressions
    have hParse : ∀ entry ∈ entries, (stripMarker? marker entry.1).isSome = true →
        entry.2.TextsParse := by
      intro entry hMem hDeferred
      rcases hMarked entry hMem with hPlain | ⟨-, -, -, -, -, hTexts⟩
      · rw [(stripMarker?_eq_none_iff hMarker).mpr hPlain] at hDeferred
        cases hDeferred
      · exact hTexts
    have hEntries := exists_loadedFrom_entries hMarker entries hValues hParse
    choose! loaded hLoaded using hEntries
    exact LoadedFrom.ofObject hMarker deferred hOrdered hMarked hLoaded
termination_by structural d

theorem exists_loadedFrom_items {marker : String} (hMarker : marker ≠ "") {deferred : Bool}
    (items : List Document) (hCanonical : ∀ item ∈ items, item.Canonical marker)
    (hTexts : deferred = true → ∀ item ∈ items, item.TextsParse) :
    ∀ item ∈ items, ∃ v, LoadedFrom marker deferred item v := by
  cases items with
  | nil => exact nofun
  | cons item rest =>
    obtain ⟨hItem, hRest⟩ := List.forall_mem_cons.mp hCanonical
    exact List.forall_mem_cons.mpr
      ⟨exists_loadedFrom hMarker item hItem fun hDeferred => hTexts hDeferred item List.mem_cons_self,
        exists_loadedFrom_items hMarker rest hRest fun hDeferred other hMem =>
          hTexts hDeferred other (List.mem_cons_of_mem _ hMem)⟩
termination_by structural items

theorem exists_loadedFrom_entries {marker : String} (hMarker : marker ≠ "")
    (entries : List (String × Document)) (hCanonical : ∀ entry ∈ entries, entry.2.Canonical marker)
    (hTexts : ∀ entry ∈ entries, (stripMarker? marker entry.1).isSome = true → entry.2.TextsParse) :
    ∀ entry ∈ entries, ∃ v, LoadedFrom marker (stripMarker? marker entry.1).isSome entry.2 v := by
  cases entries with
  | nil => exact nofun
  | cons entry rest =>
    obtain ⟨key, d⟩ := entry
    obtain ⟨hEntry, hRest⟩ := List.forall_mem_cons.mp hCanonical
    obtain ⟨hText, hRestTexts⟩ := List.forall_mem_cons.mp hTexts
    exact List.forall_mem_cons.mpr ⟨exists_loadedFrom hMarker d hEntry hText,
      exists_loadedFrom_entries hMarker rest hRest hRestTexts⟩
termination_by structural entries

end

/-! ## Stores -/

/-- **Loading and exporting give a canonical document back.** A store loads every object
that is canonical for its marker, and its export is that object again. Every entry under a
marked key, at any depth, stands in the loaded tree under the key without the marker, its
texts loaded as expressions, and is the export of what stands there. -/
theorem export_load_of_canonical {s : Store} (hMarker : s.marker ≠ "") {entries : Dict Document}
    (hCanonical : (Document.object entries).Canonical s.marker) :
    ∃ loaded, s.load (.object entries) = .ok loaded ∧ loaded.toDocument = .object entries ∧
      ∀ inside : Dict Document, Document.Inside (.object inside) (.object entries) →
        ∀ key inner, (key ++ s.marker, inner) ∈ inside →
          ∃ value, (Value.map loaded.root).HasEntry key value ∧ value.isMarked = true ∧
            inner.toValue s.marker true = .ok value ∧ value.toDocument s.marker = inner := by
  -- no marker reaches the root
  obtain ⟨v, hLoaded, hExported, hEntries⟩ :
      ∃ v, LoadedFrom s.marker false (.object entries) v :=
    exists_loadedFrom hMarker (.object entries) hCanonical nofun
  -- an object is loaded as a map
  obtain ⟨root, rfl⟩ : ∃ root, v = .map root := by
    rw [Document.toValue] at hLoaded
    split at hLoaded
    · next root _ => exact ⟨root, (Except.ok.inj hLoaded).symm⟩
    · cases hLoaded
  refine ⟨{ s with root, comments := [] }, by rw [Store.load, hLoaded], hExported, ?_⟩
  intro inside hInside key inner hMem
  obtain ⟨value, hValue, hInner, hBack⟩ := hEntries inside hInside _ hMem
  rw [loadedKey_append hMarker] at hValue
  rw [stripMarker?_append hMarker] at hInner
  -- the key ends in the marker, so it is one that needs it
  rcases hCanonical.marked inside hInside _ hMem with hPlain | ⟨-, -, -, -, hText, -⟩
  · exact absurd ⟨key, rfl⟩ hPlain
  · exact ⟨value, hValue, isMarked_of_toValue hText hInner, hInner, hBack⟩

/-- The document of a sum, in an array of arrays beside another sum, and a text that ends in
the marker. -/
def quotaEntries : Dict Document :=
  [("name", .string "quota$"), ("sizes$", .array [.string "1 + 1", .array [sumDocument]])]

theorem sumDocument_canonical : sumDocument.Canonical "$" := by
  refine Document.Canonical.object_iff.mpr ⟨?_, ?_, ?_⟩
  · exact List.pairwise_pair.mpr (by decide)
  · refine List.forall_mem_cons.mpr ⟨.inr ⟨"sum", rfl, ?_, by decide, ⟨_, .inl rfl⟩, ?_⟩,
      List.forall_mem_singleton.mpr (.inl ?_)⟩
    · exact (stripMarker?_eq_none_iff (by decide)).mp rfl
    · rintro _ ⟨⟩
      exact ⟨_, rfl⟩
    · exact (stripMarker?_eq_none_iff (by decide)).mp rfl
  · exact List.forall_mem_cons.mpr ⟨.string _, List.forall_mem_singleton.mpr (.string _)⟩

theorem quotaEntries_canonical : (Document.object quotaEntries).Canonical "$" := by
  have hArray : (Document.array [.string "1 + 1", .array [sumDocument]]).Canonical "$" :=
    Document.Canonical.array_iff.mpr (List.forall_mem_cons.mpr ⟨.string _,
      List.forall_mem_singleton.mpr (Document.Canonical.array_iff.mpr
        (List.forall_mem_singleton.mpr sumDocument_canonical))⟩)
  have hText : ∀ s, (Document.array [.string "1 + 1", .array [sumDocument]]).HasText s →
      s = "1 + 1" := by
    intro s h
    cases h with
    | item hMem hText =>
      rcases List.mem_cons.mp hMem with rfl | hMem
      · cases hText
        rfl
      · -- the only item of the inner array is an object
        obtain rfl := List.mem_singleton.mp hMem
        cases hText with
        | item hMem hText =>
          obtain rfl := List.mem_singleton.mp hMem
          cases hText
  refine Document.Canonical.object_iff.mpr ⟨?_, ?_, ?_⟩
  · exact List.pairwise_pair.mpr (by decide)
  · refine List.forall_mem_cons.mpr ⟨.inl ((stripMarker?_eq_none_iff (by decide)).mp rfl),
      List.forall_mem_singleton.mpr (.inr ⟨"sizes", rfl,
        (stripMarker?_eq_none_iff (by decide)).mp rfl, by decide,
        ⟨"1 + 1", .inr ⟨_, rfl, List.mem_cons_self⟩⟩, fun s h => ?_⟩)⟩
    exact ⟨sumExpression, hText s h ▸ rfl⟩
  · exact List.forall_mem_cons.mpr ⟨.string _, List.forall_mem_singleton.mpr hArray⟩

/-- The sums come back as they are, from an object in an array of arrays as well. -/
theorem quotaEntries_back :
    Store.empty.marker ≠ "" ∧ (Document.object quotaEntries).Canonical Store.empty.marker ∧
      ∃ loaded, Store.empty.load (.object quotaEntries) = .ok loaded ∧
        loaded.toDocument = .object quotaEntries ∧
        (Value.map loaded.root).HasEntry "sum" (.expression sumExpression) := by
  have hMarker : Store.empty.marker ≠ "" := by decide
  obtain ⟨loaded, hLoad, hExport, hEntries⟩ :=
    export_load_of_canonical (s := Store.empty) hMarker quotaEntries_canonical
  refine ⟨hMarker, quotaEntries_canonical, loaded, hLoad, hExport, ?_⟩
  -- the sum stands in the object of the inner array
  have hInside : Document.Inside sumDocument (.object quotaEntries) :=
    .entry (List.mem_cons_of_mem _ List.mem_cons_self)
      (.item (List.mem_cons_of_mem _ List.mem_cons_self) (.item List.mem_cons_self .self))
  obtain ⟨value, hValue, -, hSum, -⟩ := hEntries _ hInside "sum" _ List.mem_cons_self
  obtain rfl : .expression sumExpression = value := Except.ok.inj hSum
  exact hValue

end TypedConfig
