import TypedConfig.Dict
import Mathlib.Data.List.Nodup
import Mathlib.Data.List.Perm.Basic

/-!
# Dictionaries in order

Writing keeps the keys of a dictionary in strictly ascending order, so a
dictionary is determined by its entries: two with the same entries are the same
list. A dictionary made from entries with different keys has exactly these.

Main results:

* `Ordered.insert` / `ordered_ofList` — writing keeps the order.
* `ofList_perm` — a dictionary has the entries it was made from.
* `Ordered.eq_of_perm` / `Ordered.ext` — the entries determine the list, and so does what is
  read under the keys.
* `get?_map` / `insert_map` — a change of all values.
* `Ordered.alter_alter` / `Ordered.alter_comm` — changes of the same entry and of different ones.
-/

namespace TypedConfig.Dict

variable {α : Type u}

/-- What is read under a key stands there. -/
theorem mem_of_get? {key : String} {value : α} {entries : Dict α}
    (h : entries.get? key = some value) : (key, value) ∈ entries := by
  induction entries with
  | nil => cases h
  | cons entry rest ih =>
    rw [get?_cons] at h
    -- the key is the one in question, or it is looked for in the rest
    split at h
    · next hKey =>
      cases h
      exact hKey ▸ List.mem_cons_self ..
    · exact List.mem_cons_of_mem _ (ih h)

/-- The keys are in strictly ascending order. -/
def Ordered (entries : Dict α) : Prop :=
  entries.Pairwise fun a b => a.1 < b.1

theorem Ordered.nodup_keys {entries : Dict α} (h : Ordered entries) :
    (entries.map Prod.fst).Nodup := by
  rw [List.Nodup, List.pairwise_map]
  refine List.Pairwise.imp (fun {a b} hLess hEq => ?_) h
  rw [hEq] at hLess
  exact String.lt_irrefl _ hLess

/-- An entry is determined by its key. -/
theorem eq_of_key_eq {entries : Dict α} (h : (entries.map Prod.fst).Nodup) {a b : String × α}
    (ha : a ∈ entries) (hb : b ∈ entries) (hKey : a.1 = b.1) : a = b :=
  List.inj_on_of_nodup_map h ha hb hKey

/-- The order leaves no choice in how to list the entries. -/
theorem Ordered.eq_of_perm {a b : Dict α} (ha : Ordered a) (hb : Ordered b) (h : a.Perm b) :
    a = b := by
  refine List.Perm.eq_of_pairwise (fun x y _ _ hLess hGreater => ?_) ha hb h
  -- no two entries are each before the other
  exact absurd (String.lt_trans hLess hGreater) (String.lt_irrefl _)

/-- In order, what stands under a key is what is read there. -/
theorem Ordered.mem_iff {entries : Dict α} (h : Ordered entries) {key : String} {value : α} :
    (key, value) ∈ entries ↔ get? key entries = some value := by
  refine ⟨fun hMem => ?_, mem_of_get?⟩
  induction entries with
  | nil => cases hMem
  | cons first rest ih =>
    obtain ⟨hFirst, hRest⟩ := List.pairwise_cons.mp h
    rcases List.mem_cons.mp hMem with rfl | hMem
    · rw [get?_cons, if_pos rfl]
    · -- the entry comes after the first one, so it has another key
      have hLess : first.1 < key := hFirst _ hMem
      have hKey : first.1 ≠ key := fun hSame => String.lt_irrefl key (hSame ▸ hLess)
      rw [get?_cons, if_neg hKey, ih hRest hMem]

/-- Dictionaries in order are the same if the same is read from them. -/
theorem Ordered.ext {a b : Dict α} (ha : Ordered a) (hb : Ordered b)
    (h : ∀ key, get? key a = get? key b) : a = b := by
  refine ha.eq_of_perm hb ?_
  refine (List.perm_ext_iff_of_nodup ha.nodup_keys.of_map hb.nodup_keys.of_map).mpr ?_
  rintro ⟨key, value⟩
  rw [ha.mem_iff, hb.mem_iff, h]

/-! ## Changing the values -/

section
variable {β : Type v} (f : α → β)

theorem get?_map (key : String) (entries : Dict α) :
    get? key (entries.map (Prod.map id f)) = (get? key entries).map f := by
  induction entries with
  | nil => rfl
  | cons entry rest ih =>
    obtain ⟨k, v⟩ := entry
    show (if k = key then some (f v) else get? key (rest.map (Prod.map id f))) = _
    -- keys stay what they are, so both look at the same entry
    rw [ih, get?_cons]
    split <;> rfl

theorem insert_map (key : String) (value : α) (entries : Dict α) :
    Dict.insert key (f value) (entries.map (Prod.map id f)) =
      (Dict.insert key value entries).map (Prod.map id f) := by
  induction entries with
  | nil => rfl
  | cons entry rest ih =>
    obtain ⟨k, v⟩ := entry
    rw [List.map_cons, Prod.map, Dict.insert, Dict.insert]
    dsimp only [id]
    -- the place of a new entry depends on the keys alone
    split
    · rfl
    · split
      · rfl
      · exact congrArg (List.cons _) ih

end

/-! ## Writing one entry -/

theorem mem_of_mem_insert {key : String} {value : α} {entries : Dict α} {entry : String × α}
    (h : entry ∈ Dict.insert key value entries) : entry = (key, value) ∨ entry ∈ entries := by
  induction entries with
  | nil => exact Or.inl (List.mem_singleton.mp h)
  | cons first rest ih =>
    rw [Dict.insert] at h
    -- the new entry replaces the first one, goes in front of it, or into the rest
    split at h
    · rcases List.mem_cons.mp h with h | h
      · exact Or.inl h
      · exact Or.inr (List.mem_cons_of_mem _ h)
    · split at h
      · exact (List.mem_cons.mp h).imp_right id
      · rcases List.mem_cons.mp h with h | h
        · exact Or.inr (h ▸ List.mem_cons_self ..)
        · exact (ih h).imp_right (List.mem_cons_of_mem _)

theorem Ordered.insert {entries : Dict α} (h : Ordered entries) (key : String) (value : α) :
    Ordered (Dict.insert key value entries) := by
  induction entries with
  | nil => exact List.pairwise_singleton ..
  | cons first rest ih =>
    obtain ⟨hFirst, hRest⟩ := List.pairwise_cons.mp h
    rw [Dict.insert]
    split
    · next hSame =>
      -- the new entry takes the place of the old one under the same key
      refine List.pairwise_cons.mpr ⟨fun entry hMem => ?_, hRest⟩
      rw [← hSame]
      exact hFirst entry hMem
    · next hDiffers =>
      split
      · -- in front of a larger key, it is smaller than all that follow
        next hLess =>
        refine List.pairwise_cons.mpr ⟨fun entry hMem => ?_, h⟩
        rcases List.mem_cons.mp hMem with rfl | hMem
        · exact hLess
        · exact String.lt_trans hLess (hFirst entry hMem)
      · next hNotLess =>
        refine List.pairwise_cons.mpr ⟨fun entry hMem => ?_, ih hRest⟩
        rcases mem_of_mem_insert hMem with rfl | hMem
        · -- the key is neither equal nor smaller
          show first.1 < key
          by_contra hNotGreater
          exact hDiffers (String.le_antisymm (String.not_lt.mp hNotLess)
            (String.not_lt.mp hNotGreater))
        · exact hFirst entry hMem

/-- Of two values that are written under the same key, the second one stays. -/
theorem insert_insert (key : String) (first second : α) (entries : Dict α) :
    Dict.insert key second (Dict.insert key first entries) = Dict.insert key second entries := by
  induction entries with
  | nil => simp [Dict.insert]
  | cons entry rest ih =>
    obtain ⟨k, v⟩ := entry
    rw [Dict.insert, Dict.insert]
    -- at each entry the second value finds the place where the first one went
    split
    · simp [Dict.insert]
    · next hDiffers =>
      split
      · simp [Dict.insert]
      · next hNotLess => rw [Dict.insert, if_neg hDiffers, if_neg hNotLess, ih]

/-- Under a new key an entry is added to those that are there. -/
theorem insert_perm {key : String} {value : α} {entries : Dict α}
    (h : key ∉ entries.map Prod.fst) :
    (Dict.insert key value entries).Perm ((key, value) :: entries) := by
  induction entries with
  | nil => exact List.Perm.refl _
  | cons first rest ih =>
    rw [List.map_cons, List.mem_cons, not_or] at h
    -- the key is no old one, so nothing is replaced
    rw [Dict.insert, if_neg (Ne.symm h.1)]
    split
    · exact List.Perm.refl _
    · exact ((ih h.2).cons first).trans (List.Perm.swap ..)

theorem Ordered.erase {entries : Dict α} (h : Ordered entries) (key : String) :
    Ordered (Dict.erase key entries) :=
  List.Pairwise.filter _ h

/-! ## Changing one entry -/

/-- Puts under a key what a function makes of what is there, or takes the entry out where it
makes nothing. -/
def alter (key : String) (f : Option α → Option α) (entries : Dict α) : Dict α :=
  match f (get? key entries) with
  | some value => entries.insert key value
  | none => entries.erase key

section
variable {f g : Option α → Option α} {entries : Dict α}

theorem mem_of_mem_alter {key : String} {entry : String × α} (h : entry ∈ alter key f entries) :
    some entry.2 = f (get? key entries) ∨ entry ∈ entries := by
  unfold alter at h
  split at h
  · -- an entry that was written is the new value of its key, or an old entry
    next value hValue =>
    rcases mem_of_mem_insert h with rfl | h
    · exact .inl hValue.symm
    · exact .inr h
  -- an entry that is only taken out leaves old ones
  · exact .inr (List.mem_filter.mp h).1

@[simp] theorem get?_alter_self (key : String) (f : Option α → Option α) (entries : Dict α) :
    get? key (alter key f entries) = f (get? key entries) := by
  unfold alter
  split
  · next value hValue => rw [get?_insert_self, hValue]
  · next hNone => rw [get?_erase_self, hNone]

theorem get?_alter_of_ne {key other : String} (ne : other ≠ key) (f : Option α → Option α)
    (entries : Dict α) : get? other (alter key f entries) = get? other entries := by
  unfold alter
  split
  · exact get?_insert_of_ne ne _ _
  · exact get?_erase_of_ne ne _

theorem Ordered.alter (h : Ordered entries) (key : String) (f : Option α → Option α) :
    Ordered (Dict.alter key f entries) := by
  unfold Dict.alter
  split
  · exact h.insert key _
  · exact h.erase key

/-- Nothing changes where what is there stays. -/
theorem Ordered.alter_eq_self (h : Ordered entries) {key : String}
    (hSame : f (get? key entries) = get? key entries) : Dict.alter key f entries = entries := by
  refine (h.alter key f).ext h fun other => ?_
  by_cases hKey : other = key
  · rw [hKey, get?_alter_self, hSame]
  · exact get?_alter_of_ne hKey f entries

/-- Two changes of one entry are a single one. -/
theorem Ordered.alter_alter (h : Ordered entries) (key : String) (f g : Option α → Option α) :
    Dict.alter key g (Dict.alter key f entries) = Dict.alter key (g ∘ f) entries := by
  refine ((h.alter key f).alter key g).ext (h.alter key _) fun other => ?_
  by_cases hKey : other = key
  · rw [hKey, get?_alter_self, get?_alter_self, get?_alter_self, Function.comp]
  · rw [get?_alter_of_ne hKey, get?_alter_of_ne hKey, get?_alter_of_ne hKey]

/-- Changes of different entries can be made in either order. -/
theorem Ordered.alter_comm (h : Ordered entries) {key other : String} (ne : key ≠ other)
    (f g : Option α → Option α) :
    Dict.alter other g (Dict.alter key f entries) =
      Dict.alter key f (Dict.alter other g entries) := by
  -- in order, dictionaries are equal when they have the same value under every key
  refine ((h.alter key f).alter other g).ext ((h.alter other g).alter key f) fun third => ?_
  by_cases hKey : third = key
  · rw [hKey, get?_alter_of_ne ne, get?_alter_self, get?_alter_self, get?_alter_of_ne ne]
  · by_cases hOther : third = other
    · rw [hOther, get?_alter_self, get?_alter_of_ne ne.symm, get?_alter_of_ne ne.symm,
        get?_alter_self]
    · rw [get?_alter_of_ne hOther, get?_alter_of_ne hKey, get?_alter_of_ne hKey,
        get?_alter_of_ne hOther]

theorem alter_congr {key : String} (h : f (get? key entries) = g (get? key entries)) :
    alter key f entries = alter key g entries := by
  rw [alter, alter, h]

end

/-! ## Writing many entries -/

/-- Writes entries one after the other. -/
def insertAll (pairs : List (String × α)) (entries : Dict α) : Dict α :=
  pairs.foldl (fun dict pair => dict.insert pair.1 pair.2) entries

theorem mem_of_mem_insertAll {pairs : List (String × α)} {entries : Dict α} {entry : String × α}
    (h : entry ∈ insertAll pairs entries) : entry ∈ pairs ∨ entry ∈ entries := by
  induction pairs generalizing entries with
  | nil => exact Or.inr h
  | cons pair pairs ih =>
    rcases ih h with hMem | hMem
    · exact Or.inl (List.mem_cons_of_mem _ hMem)
    · rcases mem_of_mem_insert hMem with hEq | hMem
      · exact Or.inl (hEq ▸ List.mem_cons_self ..)
      · exact Or.inr hMem

theorem mem_of_mem_ofList {pairs : List (String × α)} {entry : String × α}
    (h : entry ∈ ofList pairs) : entry ∈ pairs := by
  rcases mem_of_mem_insertAll h with h | h
  · exact h
  · cases h

theorem ordered_insertAll {pairs : List (String × α)} {entries : Dict α} (h : Ordered entries) :
    Ordered (insertAll pairs entries) := by
  induction pairs generalizing entries with
  | nil => exact h
  | cons pair pairs ih => exact ih (h.insert pair.1 pair.2)

theorem ordered_ofList (pairs : List (String × α)) : Ordered (ofList pairs) :=
  ordered_insertAll List.Pairwise.nil

theorem insertAll_perm {pairs : List (String × α)} {entries : Dict α}
    (h : (pairs.map Prod.fst ++ entries.map Prod.fst).Nodup) :
    (insertAll pairs entries).Perm (pairs ++ entries) := by
  induction pairs generalizing entries with
  | nil => exact List.Perm.refl _
  | cons pair pairs ih =>
    rw [List.map_cons, List.cons_append] at h
    -- the first key is new, and once it is written the others are still new
    obtain ⟨hNew, -⟩ := List.nodup_cons.mp h
    rw [List.mem_append, not_or] at hNew
    have hInsert : (Dict.insert pair.1 pair.2 entries).Perm (pair :: entries) :=
      insert_perm hNew.2
    have hKeys : (pairs.map Prod.fst ++ (Dict.insert pair.1 pair.2 entries).map Prod.fst).Nodup := by
      refine (List.Perm.nodup_iff ?_).mpr h
      exact ((hInsert.map Prod.fst).append_left _).trans List.perm_middle
    have hMoved : (pairs ++ Dict.insert pair.1 pair.2 entries).Perm (pair :: pairs ++ entries) :=
      (hInsert.append_left pairs).trans List.perm_middle
    exact (ih hKeys).trans hMoved

/-- A dictionary has the entries it was made from, when their keys differ. -/
theorem ofList_perm {pairs : List (String × α)} (h : (pairs.map Prod.fst).Nodup) :
    (ofList pairs).Perm pairs := by
  have hKeys : (pairs.map Prod.fst ++ ([] : Dict α).map Prod.fst).Nodup := by
    rw [List.map_nil, List.append_nil]
    exact h
  have hPerm : (ofList pairs).Perm (pairs ++ []) := insertAll_perm hKeys
  rw [List.append_nil] at hPerm
  exact hPerm

end TypedConfig.Dict
