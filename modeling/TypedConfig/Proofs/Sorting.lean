import TypedConfig.Resolved
import Mathlib.Data.List.Induction

/-!
# Sorting by keys

Typed sets and maps are sorted by writing their entries one after the other into a list that
is kept in order. An entry whose key is there already replaces the value under it. So the keys
end up in strictly ascending order, and of all entries with one key the last one stays.

This needs an order that tells keys apart, and `Native.compare` is only one on values of the
same type, floating point types aside. `StrictOn` restricts an order to the keys in question.

Main results:

* `sortEntries_map` / `sortItems_map` — a change of the keys that their order does not notice.
* `Native.compare_strictOn` — the values of a type that can be a key are told apart.
* `ascending_sortEntries` / `mem_sortEntries_iff` — what sorting leaves of entries.
* `sortEntries_of_ascending` — entries in order stay as they are.
* `sortItems_perm` — different items are all there after sorting.
-/

namespace TypedConfig

/-! ## Sorting what was changed -/

section
variable {α α' β β' : Type _} {order : α → α → Ordering} {order' : α' → α' → Ordering}
  {f : α → α'} (hOrder : ∀ a b, order' (f a) (f b) = order a b)
include hOrder

theorem insertBy_map (g : β → β') (key : α) (value : β) (entries : List (α × β)) :
    insertBy order' (f key) (g value) (entries.map (Prod.map f g)) =
      (insertBy order key value entries).map (Prod.map f g) := by
  induction entries with
  | nil => rfl
  | cons entry rest ih =>
    rw [List.map_cons, Prod.map, insertBy, insertBy, hOrder]
    -- the order places both keys alike
    cases order key entry.1 with
    | lt => rfl
    | eq => rfl
    | gt => exact congrArg (List.cons _) ih

/-- A change of the keys that their order does not notice. -/
theorem sortEntries_map (g : β → β') (entries : List (α × β)) :
    sortEntries order' (entries.map (Prod.map f g)) =
      (sortEntries order entries).map (Prod.map f g) := by
  -- from lists that correspond the loop goes on with lists that do
  have hLoop : ∀ sorted : List (α × β),
      (entries.map (Prod.map f g)).foldl (fun sorted e => insertBy order' e.1 e.2 sorted)
          (sorted.map (Prod.map f g)) =
        (entries.foldl (fun sorted e => insertBy order e.1 e.2 sorted) sorted).map
          (Prod.map f g) := by
    induction entries with
    | nil => exact fun _ => rfl
    | cons entry rest ih =>
      intro sorted
      rw [List.map_cons, List.foldl_cons, List.foldl_cons, ← ih, ← insertBy_map hOrder g]
      rfl
  exact hLoop []

theorem sortItems_map (items : List α) :
    sortItems order' (items.map f) = (sortItems order items).map f := by
  have hEntries : (items.map f).map (fun item => (item, ())) =
      (items.map fun item => (item, ())).map (Prod.map f id) := by
    rw [List.map_map, List.map_map]
    rfl
  rw [sortItems, sortItems, hEntries, sortEntries_map hOrder, List.map_map, List.map_map]
  rfl

end

/-! ## Orders that tell keys apart -/

variable {α β κ : Type _}

/-- On the keys with the property, the order is a strict one. -/
structure StrictOn (order : κ → κ → Ordering) (P : κ → Prop) : Prop where
  eq_iff : ∀ {a b}, P a → P b → (order a b = .eq ↔ a = b)
  gt_iff : ∀ {a b}, P a → P b → (order a b = .gt ↔ order b a = .lt)
  lt_trans : ∀ {a b c}, P a → P b → P c → order a b = .lt → order b c = .lt → order a c = .lt

namespace StrictOn

variable {order : κ → κ → Ordering} {P : κ → Prop}

theorem ne_of_lt (h : StrictOn order P) {a b : κ} (ha : P a) (hb : P b) (hLess : order a b = .lt) :
    a ≠ b := by
  rintro rfl
  rw [(h.eq_iff ha ha).mpr rfl] at hLess
  cases hLess

/-- Values that stand for others are ordered as well as these are. -/
theorem image (h : StrictOn order P) {order' : α → α → Ordering} {f : κ → α}
    (hOrder : ∀ a b, order' (f a) (f b) = order a b) :
    StrictOn order' fun x => ∃ a, P a ∧ f a = x where
  eq_iff := by
    rintro _ _ ⟨a, ha, rfl⟩ ⟨b, hb, rfl⟩
    -- different keys may stand behind one value: it is equal to itself through either of them
    constructor
    · intro hSame
      rw [hOrder, h.eq_iff ha hb] at hSame
      rw [hSame]
    · intro hSame
      rw [← hSame, hOrder]
      exact (h.eq_iff ha ha).mpr rfl
  gt_iff := by
    rintro _ _ ⟨a, ha, rfl⟩ ⟨b, hb, rfl⟩
    rw [hOrder, hOrder]
    exact h.gt_iff ha hb
  lt_trans := by
    rintro _ _ _ ⟨a, ha, rfl⟩ ⟨b, hb, rfl⟩ ⟨c, hc, rfl⟩
    rw [hOrder, hOrder, hOrder]
    exact h.lt_trans ha hb hc

theorem mono {Q : κ → Prop} (h : StrictOn order P) (hLess : ∀ a, Q a → P a) : StrictOn order Q where
  eq_iff ha hb := h.eq_iff (hLess _ ha) (hLess _ hb)
  gt_iff ha hb := h.gt_iff (hLess _ ha) (hLess _ hb)
  lt_trans ha hb hc := h.lt_trans (hLess _ ha) (hLess _ hb) (hLess _ hc)

/-- Values are told apart by a measure that no two of them share. -/
theorem of_measure [Ord α] [Std.TransOrd α] [Std.LawfulEqOrd α] {measure : κ → α}
    (hMeasure : Function.Injective measure)
    (hOrder : ∀ a b, order a b = compare (measure a) (measure b)) :
    StrictOn order fun _ => True where
  eq_iff {a b} _ _ := by
    rw [hOrder, Std.LawfulEqCmp.compare_eq_iff_eq]
    exact hMeasure.eq_iff
  gt_iff {a b} _ _ := by
    rw [hOrder, hOrder]
    exact Std.OrientedCmp.gt_iff_lt
  lt_trans {a b c} _ _ _ := by
    rw [hOrder, hOrder, hOrder]
    exact Std.TransCmp.lt_trans

end StrictOn

/-- The types whose values can be keys: all but the floating point types. -/
def NativeType.IsKey (type : NativeType) : Prop :=
  type ∈ [.string, .long, .int, .boolean]

instance (type : NativeType) : Decidable type.IsKey :=
  inferInstanceAs (Decidable (type ∈ _))

/-- The type of a native value. -/
def Native.type : Native → NativeType
  | string _ => .string
  | long _ => .long
  | int _ => .int
  | double _ => .double
  | single _ => .single
  | boolean _ => .boolean

theorem NativeType.type_of_ofScalar {type : NativeType} {s : Scalar} {n : Native}
    (h : type.ofScalar s = .ok n) : n.type = type := by
  unfold NativeType.ofScalar at h
  -- every value is made with a constructor of the type
  split at h
  · cases h; rfl
  · cases h; rfl
  · split at h
    · cases h; rfl
    · cases h
  · cases h; rfl
  · split at h
    · cases h; rfl
    · cases h
  · cases h; rfl
  · cases h

/-- What the values of a type are made of tells them apart. -/
theorem Native.compare_strictOn_of_measure {ι : Type _} [Ord α] [Std.TransOrd α]
    [Std.LawfulEqOrd α] {type : NativeType} (make : ι → Native) {measure : ι → α}
    (hMeasure : Function.Injective measure)
    (hOrder : ∀ a b, Native.compare (make a) (make b) = Ord.compare (measure a) (measure b))
    (hMade : ∀ n, n.type = type → ∃ a, make a = n) :
    StrictOn Native.compare fun n => n.type = type := by
  -- the measure orders what the values are made of
  have hParts : StrictOn (fun a b => Native.compare (make a) (make b)) fun _ => True :=
    .of_measure hMeasure hOrder
  refine (hParts.image (f := make) fun _ _ => rfl).mono fun n hType => ?_
  -- every value of the type is made of something
  obtain ⟨a, rfl⟩ := hMade n hType
  exact ⟨a, trivial, rfl⟩

/-- **The values of a type that can be a key are told apart by their order.** -/
theorem Native.compare_strictOn {type : NativeType} (hKey : type.IsKey) :
    StrictOn Native.compare fun n => n.type = type := by
  -- for each key type: its constructor and what orders it
  cases type with
  | string =>
    refine compare_strictOn_of_measure .string Function.injective_id (fun _ _ => rfl) ?_
    intro n hType
    cases n with
    | string s => exact ⟨s, rfl⟩
    | _ => cases hType
  | long =>
    refine compare_strictOn_of_measure .long (fun _ _ => Int64.toInt_inj.mp) (fun _ _ => rfl) ?_
    intro n hType
    cases n with
    | long n => exact ⟨n, rfl⟩
    | _ => cases hType
  | int =>
    refine compare_strictOn_of_measure .int (fun _ _ => Int32.toInt_inj.mp) (fun _ _ => rfl) ?_
    intro n hType
    cases n with
    | int n => exact ⟨n, rfl⟩
    | _ => cases hType
  | boolean =>
    refine compare_strictOn_of_measure .boolean Function.injective_id (fun _ _ => rfl) ?_
    intro n hType
    cases n with
    | boolean b => exact ⟨b, rfl⟩
    | _ => cases hType
  | double | single => exact absurd hKey (by decide)

theorem Typed.compare_native (a b : Native) :
    Typed.compare (.native a) (.native b) = Native.compare a b := by
  rw [Typed.compare]

/-! ## The last of several entries -/

/-- The entry stands somewhere, and no other one after it has the same key. -/
def IsLast (entries : List (κ × β)) (e : κ × β) : Prop :=
  ∃ before after, entries = before ++ e :: after ∧ ∀ other ∈ after, other.1 ≠ e.1

section
variable {entries : List (κ × β)} {e : κ × β}

theorem IsLast.mem (h : IsLast entries e) : e ∈ entries := by
  obtain ⟨before, after, rfl, -⟩ := h
  exact List.mem_append_right _ (List.mem_cons_self ..)

theorem not_isLast_nil : ¬IsLast [] e :=
  fun h => List.not_mem_nil h.mem

theorem isLast_cons_iff {first : κ × β} :
    IsLast (first :: entries) e ↔
      e = first ∧ (∀ other ∈ entries, other.1 ≠ e.1) ∨ IsLast entries e := by
  constructor
  · rintro ⟨before, after, hEntries, hAfter⟩
    cases before with
    -- the first entry itself, with no other of its key behind it
    | nil =>
      obtain ⟨rfl, rfl⟩ := List.cons.inj hEntries
      exact .inl ⟨rfl, hAfter⟩
    -- an entry further down
    | cons other before =>
      obtain ⟨-, rfl⟩ := List.cons.inj hEntries
      exact .inr ⟨before, after, rfl, hAfter⟩
  · rintro (⟨rfl, hAfter⟩ | ⟨before, after, rfl, hAfter⟩)
    · exact ⟨[], entries, rfl, hAfter⟩
    · exact ⟨first :: before, after, rfl, hAfter⟩

/-- One more entry is the last one of its key, and does not matter to other keys. -/
theorem isLast_append_singleton_iff {last : κ × β} :
    IsLast (entries ++ [last]) e ↔ e = last ∨ e.1 ≠ last.1 ∧ IsLast entries e := by
  constructor
  · rintro ⟨before, after, hEntries, hAfter⟩
    rcases List.eq_nil_or_concat after with rfl | ⟨after, other, rfl⟩
    · -- nothing stands behind it: it is the new entry
      exact .inl (List.cons.inj (List.append_inj_right' hEntries rfl)).1.symm
    · -- the new entry stands behind it, so it has another key
      rw [List.concat_eq_append, ← List.cons_append, ← List.append_assoc] at hEntries
      obtain rfl : last = other := (List.cons.inj (List.append_inj_right' hEntries rfl)).1
      rw [List.concat_eq_append, List.forall_mem_append, List.forall_mem_singleton] at hAfter
      exact .inr ⟨hAfter.2.symm, before, after, List.append_inj_left' hEntries rfl, hAfter.1⟩
  · rintro (rfl | ⟨hKey, before, after, rfl, hAfter⟩)
    · exact ⟨entries, [], rfl, fun _ h => absurd h List.not_mem_nil⟩
    · refine ⟨before, after ++ [last], by rw [List.append_assoc, List.cons_append], ?_⟩
      exact List.forall_mem_append.mpr ⟨hAfter, List.forall_mem_singleton.mpr hKey.symm⟩

/-- Every key that occurs has a last entry. -/
theorem exists_isLast_iff {k : κ} :
    (∃ value, IsLast entries (k, value)) ↔ ∃ e ∈ entries, e.1 = k := by
  constructor
  · rintro ⟨value, hLast⟩
    exact ⟨_, hLast.mem, rfl⟩
  · rintro ⟨e, hMem, rfl⟩
    -- the entry at the end is the last one of its key
    induction entries using List.reverseRecOn with
    | nil => cases hMem
    | append_singleton front last ih =>
      by_cases hKey : e.1 = last.1
      · exact ⟨last.2, isLast_append_singleton_iff.mpr (.inl (Prod.ext hKey rfl))⟩
      · rcases List.mem_append.mp hMem with hFront | hLast
        · obtain ⟨value, hValue⟩ := ih hFront
          exact ⟨value, isLast_append_singleton_iff.mpr (.inr ⟨hKey, hValue⟩)⟩
        · exact absurd (congrArg Prod.fst (List.mem_singleton.mp hLast)) hKey

end

/-! ## What sorting leaves -/

/-- The keys are in strictly ascending order. -/
def Ascending (order : κ → κ → Ordering) (entries : List (κ × β)) : Prop :=
  entries.Pairwise fun a b => order a.1 b.1 = .lt

section
variable {order : κ → κ → Ordering} {P : κ → Prop} (hOrder : StrictOn order P)
include hOrder

/-- The new entry is there, with the entries of other keys. -/
theorem mem_insertBy_iff {key : κ} {value : β} {entries : List (κ × β)}
    (hAscending : Ascending order entries) (hKeys : ∀ e ∈ entries, P e.1) (hKey : P key)
    {e : κ × β} :
    e ∈ insertBy order key value entries ↔ e = (key, value) ∨ e.1 ≠ key ∧ e ∈ entries := by
  induction entries with
  | nil => simp [insertBy]
  | cons first rest ih =>
    obtain ⟨hFirst, hRest⟩ := List.forall_mem_cons.mp hKeys
    obtain ⟨hLess, hAscending⟩ := List.pairwise_cons.mp hAscending
    rw [insertBy]
    cases hCompare : order key first.1 with
    | lt =>
      -- the key is smaller than all of the others
      have hOthers : ∀ other ∈ first :: rest, other.1 ≠ key := by
        refine List.forall_mem_cons.mpr ⟨(hOrder.ne_of_lt hKey hFirst hCompare).symm, ?_⟩
        intro other hOther
        exact (hOrder.ne_of_lt hKey (hRest other hOther)
          (hOrder.lt_trans hKey hFirst (hRest other hOther) hCompare (hLess other hOther))).symm
      rw [List.mem_cons, and_iff_right_of_imp (hOthers e)]
    | eq =>
      obtain rfl : key = first.1 := (hOrder.eq_iff hKey hFirst).mp hCompare
      have hOthers : ∀ other ∈ rest, other.1 ≠ first.1 := fun other hOther =>
        (hOrder.ne_of_lt hFirst (hRest other hOther) (hLess other hOther)).symm
      rw [List.mem_cons, List.mem_cons, and_or_left, and_iff_right_of_imp (hOthers e)]
      -- the first entry is replaced, and no other one has its key
      refine or_congr_right (or_iff_right ?_).symm
      rintro ⟨hKey, rfl⟩
      exact hKey rfl
    | gt =>
      -- the first entry stays, and the new one goes behind it
      have hFirstKey : first.1 ≠ key :=
        hOrder.ne_of_lt hFirst hKey ((hOrder.gt_iff hKey hFirst).mp hCompare)
      have hHead : e.1 ≠ key ∧ e = first ↔ e = first :=
        and_iff_right_of_imp fun hSame => hSame ▸ hFirstKey
      rw [List.mem_cons, List.mem_cons, ih hAscending hRest, and_or_left, hHead]
      exact or_left_comm

theorem ascending_insertBy {key : κ} {value : β} {entries : List (κ × β)}
    (hAscending : Ascending order entries) (hKeys : ∀ e ∈ entries, P e.1) (hKey : P key) :
    Ascending order (insertBy order key value entries) := by
  induction entries with
  | nil => exact List.pairwise_singleton ..
  | cons first rest ih =>
    obtain ⟨hFirst, hRest⟩ := List.forall_mem_cons.mp hKeys
    obtain ⟨hLess, hTail⟩ := List.pairwise_cons.mp hAscending
    rw [insertBy]
    cases hCompare : order key first.1 with
    | lt =>
      refine List.pairwise_cons.mpr ⟨List.forall_mem_cons.mpr ⟨hCompare, ?_⟩, hAscending⟩
      intro other hOther
      exact hOrder.lt_trans hKey hFirst (hRest other hOther) hCompare (hLess other hOther)
    | eq => exact List.pairwise_cons.mpr ⟨hLess, hTail⟩
    | gt =>
      refine List.pairwise_cons.mpr ⟨fun other hOther => ?_, ih hTail hRest⟩
      -- behind the first stand the new entry and those that were there before
      rcases (mem_insertBy_iff hOrder hTail hRest hKey).mp hOther with rfl | ⟨-, hOther⟩
      · exact (hOrder.gt_iff hKey hFirst).mp hCompare
      · exact hLess other hOther

omit hOrder in
theorem sortEntries_append_singleton (entries : List (κ × β)) (last : κ × β) :
    sortEntries order (entries ++ [last]) =
      insertBy order last.1 last.2 (sortEntries order entries) :=
  List.foldl_append ..

/-- The loop keeps the entries in order, and of those it has seen the last of every key. -/
theorem sortEntries_invariant {entries : List (κ × β)} (hKeys : ∀ e ∈ entries, P e.1) :
    Ascending order (sortEntries order entries) ∧
      ∀ e, e ∈ sortEntries order entries ↔ IsLast entries e := by
  -- one turn of the loop is one more entry at the end
  induction entries using List.reverseRecOn with
  | nil => exact ⟨List.Pairwise.nil, fun e => iff_of_false List.not_mem_nil not_isLast_nil⟩
  | append_singleton front last ih =>
    obtain ⟨hFront, hLast⟩ := List.forall_mem_append.mp hKeys
    have hLast : P last.1 := hLast last (List.mem_singleton_self last)
    obtain ⟨hAscending, hMem⟩ := ih hFront
    have hSorted : ∀ e ∈ sortEntries order front, P e.1 := fun e he => hFront e ((hMem e).mp he).mem
    rw [sortEntries_append_singleton]
    -- the new entry comes in, and an older one of its key goes
    refine ⟨ascending_insertBy hOrder hAscending hSorted hLast, fun e => ?_⟩
    rw [mem_insertBy_iff hOrder hAscending hSorted hLast, hMem, isLast_append_singleton_iff]

/-- **Sorted entries are in strictly ascending order of their keys.** -/
theorem ascending_sortEntries {entries : List (κ × β)} (hKeys : ∀ e ∈ entries, P e.1) :
    Ascending order (sortEntries order entries) :=
  (sortEntries_invariant hOrder hKeys).1

/-- **Of the entries of one key, sorting leaves the last.** -/
theorem mem_sortEntries_iff {entries : List (κ × β)} (hKeys : ∀ e ∈ entries, P e.1) {e : κ × β} :
    e ∈ sortEntries order entries ↔ IsLast entries e :=
  (sortEntries_invariant hOrder hKeys).2 e

/-- A key that is larger than all others comes to the end. -/
theorem insertBy_of_lt {key : κ} {value : β} {entries : List (κ × β)}
    (hKeys : ∀ e ∈ entries, P e.1) (hKey : P key) (hLess : ∀ e ∈ entries, order e.1 key = .lt) :
    insertBy order key value entries = entries ++ [(key, value)] := by
  induction entries with
  | nil => rfl
  | cons first rest ih =>
    obtain ⟨hFirst, hRest⟩ := List.forall_mem_cons.mp hKeys
    obtain ⟨hFirstLess, hRestLess⟩ := List.forall_mem_cons.mp hLess
    rw [insertBy, (hOrder.gt_iff hKey hFirst).mpr hFirstLess]
    exact congrArg (List.cons first) (ih hRest hRestLess)

/-- Entries that are in order stay as they are. -/
theorem sortEntries_of_ascending {entries : List (κ × β)} (hKeys : ∀ e ∈ entries, P e.1)
    (hAscending : Ascending order entries) : sortEntries order entries = entries := by
  induction entries using List.reverseRecOn with
  | nil => rfl
  | append_singleton front last ih =>
    obtain ⟨hFront, hLast⟩ := List.forall_mem_append.mp hKeys
    obtain ⟨hFrontAscending, -, hLess⟩ := List.pairwise_append.mp hAscending
    -- the last one is larger than all in front of it
    rw [sortEntries_append_singleton, ih hFront hFrontAscending]
    exact insertBy_of_lt hOrder hFront (hLast last (List.mem_singleton_self last))
      fun e he => hLess e he last (List.mem_singleton_self last)

/-! ## What sorting leaves of items -/

theorem mem_sortItems_iff {items : List κ} (hItems : ∀ item ∈ items, P item) {item : κ} :
    item ∈ sortItems order items ↔ item ∈ items := by
  have hKeys : ∀ e ∈ items.map fun item => (item, ()), P e.1 := List.forall_mem_map.mpr hItems
  -- items are sorted as keys without values
  have hMem : item ∈ sortItems order items ↔
      ∃ value, (item, value) ∈ sortEntries order (items.map fun item => (item, ())) := by
    rw [sortItems, List.mem_map]
    constructor
    · rintro ⟨e, he, rfl⟩
      exact ⟨e.2, he⟩
    · rintro ⟨value, he⟩
      exact ⟨_, he, rfl⟩
  rw [hMem]
  simp only [mem_sortEntries_iff hOrder hKeys]
  rw [exists_isLast_iff]
  simp

theorem nodup_sortItems {items : List κ} (hItems : ∀ item ∈ items, P item) :
    (sortItems order items).Nodup := by
  have hKeys : ∀ e ∈ items.map fun item => (item, ()), P e.1 := List.forall_mem_map.mpr hItems
  have hAscending := ascending_sortEntries hOrder hKeys
  have hSorted : ∀ e ∈ sortEntries order (items.map fun item => (item, ())), P e.1 := fun e he =>
    hKeys e ((mem_sortEntries_iff hOrder hKeys).mp he).mem
  refine List.pairwise_map.mpr (hAscending.imp_of_mem fun ha hb hLess => ?_)
  exact hOrder.ne_of_lt (hSorted _ ha) (hSorted _ hb) hLess

/-- **Different items are all there after sorting.** -/
theorem sortItems_perm {items : List κ} (hItems : ∀ item ∈ items, P item)
    (hNodup : items.Nodup) : (sortItems order items).Perm items := by
  rw [List.perm_ext_iff_of_nodup (nodup_sortItems hOrder hItems) hNodup]
  exact fun _ => mem_sortItems_iff hOrder hItems

end

end TypedConfig
