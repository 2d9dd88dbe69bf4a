/-!
# Dictionaries

A dictionary is a list of entries kept in ascending order of their keys, which compare by code
point. Reading takes the first entry of a key, writing replaces it or puts a new entry in front of
the first larger key. The laws of reading after writing below hold of any list of entries, ordered
or not.
-/

namespace TypedConfig

/-- Named entries in ascending order of their names. -/
abbrev Dict (α : Type u) := List (String × α)

namespace Dict

variable {α : Type u}

/-- The value under a key. -/
def get? (key : String) : Dict α → Option α
  | [] => none
  | (k, v) :: rest => if k = key then some v else get? key rest

/-- Puts a value under a key, replacing the one that was there. -/
def insert (key : String) (value : α) : Dict α → Dict α
  | [] => [(key, value)]
  | (k, v) :: rest =>
    if k = key then (key, value) :: rest
    else if key < k then (key, value) :: (k, v) :: rest
    else (k, v) :: insert key value rest

/-- Takes out the entry of a key. -/
def erase (key : String) (entries : Dict α) : Dict α :=
  entries.filter fun entry => entry.1 ≠ key

/-- The dictionary of the given entries; of two with the same key the later one stays. -/
def ofList (entries : List (String × α)) : Dict α :=
  entries.foldl (fun dict (key, value) => dict.insert key value) []

@[simp] theorem get?_nil (key : String) : get? key ([] : Dict α) = none := rfl

theorem get?_cons (key k : String) (v : α) (rest : Dict α) :
    get? key ((k, v) :: rest) = if k = key then some v else get? key rest := rfl

@[simp] theorem get?_insert_self (key : String) (value : α) (entries : Dict α) :
    get? key (insert key value entries) = some value := by
  induction entries with
  | nil => simp [insert, get?]
  | cons entry rest ih =>
    obtain ⟨k, v⟩ := entry
    by_cases same : k = key
    · simp [insert, get?, same]
    · by_cases less : key < k
      · simp [insert, get?, same, less]
      · simp [insert, get?, same, less, ih]

theorem get?_insert_of_ne {key other : String} (ne : other ≠ key) (value : α) (entries : Dict α) :
    get? other (insert key value entries) = get? other entries := by
  induction entries with
  | nil => simp [insert, get?, Ne.symm ne]
  | cons entry rest ih =>
    obtain ⟨k, v⟩ := entry
    by_cases same : k = key
    · subst same
      simp [insert, get?, Ne.symm ne]
    · by_cases less : key < k
      · simp [insert, get?, same, less, Ne.symm ne]
      · simp [insert, get?, same, less, ih]

@[simp] theorem get?_erase_self (key : String) (entries : Dict α) :
    get? key (erase key entries) = none := by
  induction entries with
  | nil => rfl
  | cons entry rest ih =>
    obtain ⟨k, v⟩ := entry
    by_cases same : k = key
    · simpa [erase, same] using ih
    · simpa [erase, same, get?] using ih

theorem get?_erase_of_ne {key other : String} (ne : other ≠ key) (entries : Dict α) :
    get? other (erase key entries) = get? other entries := by
  induction entries with
  | nil => rfl
  | cons entry rest ih =>
    obtain ⟨k, v⟩ := entry
    by_cases same : k = key
    · subst same
      simpa [erase, get?, Ne.symm ne] using ih
    · by_cases this : k = other
      · simp [erase, get?, this, ne]
      · simpa [erase, get?, same, this] using ih

end Dict

end TypedConfig
