import TypedConfig.Proofs.Store.Comments
import TypedConfig.Proofs.Store.Reloading

/-!
# Trees in order

The maps of a configuration tree hold their entries in the order of their keys, at every
depth. Loading makes such trees, and setting and removing keep them so, as long as the
values that are set are in order themselves.

Setting and removing are one operation, `Tree.write`: a write changes the entry under the
first of its keys and leaves all other entries of the map alone. `Tree.write_cons` says so,
and what becomes of that entry is `Tree.writeBelow`.

Main results:

* `Value.everyMap_map` / `Value.everyMap_list` / `Value.everyMap_set` — what is said of all maps
  in a value, container by container.
* `Store.InOrder.load` / `Store.InOrder.run` — stores are loaded in order and stay so.
* `Tree.write_cons` — a write is a change of a single entry.
-/

namespace TypedConfig

/-! ## Values inside of values -/

namespace Value

/-- The value is the other one, or stands in it at some depth. -/
inductive Inside (inner : Value) : Value → Prop
  | self : Inside inner inner
  | listItem {items : List Value} {item : Value} :
      item ∈ items → Inside inner item → Inside inner (.list items)
  | setItem {items : List Value} {item : Value} :
      item ∈ items → Inside inner item → Inside inner (.set items)
  | entry {entries : Dict Value} {entry : String × Value} :
      entry ∈ entries → Inside inner entry.2 → Inside inner (.map entries)

/-- The entries of the maps in the value, at every depth, are of a kind. -/
def EveryMap (P : Dict Value → Prop) (v : Value) : Prop :=
  ∀ entries : Dict Value, Inside (.map entries) v → P entries

section
variable {P : Dict Value → Prop}

theorem everyMap_map {entries : Dict Value} :
    EveryMap P (.map entries) ↔ P entries ∧ ∀ entry ∈ entries, EveryMap P entry.2 := by
  constructor
  · intro h
    exact ⟨h entries .self, fun entry hMem inner hInside => h inner (.entry hMem hInside)⟩
  · rintro ⟨hHere, hEntries⟩ inner hInside
    cases hInside with
    | self => exact hHere
    | entry hMem hInside => exact hEntries _ hMem inner hInside

theorem everyMap_list {items : List Value} :
    EveryMap P (.list items) ↔ ∀ item ∈ items, EveryMap P item := by
  constructor
  · intro h item hMem inner hInside
    exact h inner (.listItem hMem hInside)
  · intro h inner hInside
    cases hInside with
    | listItem hMem hInside => exact h _ hMem inner hInside

theorem everyMap_set {items : List Value} :
    EveryMap P (.set items) ↔ ∀ item ∈ items, EveryMap P item := by
  constructor
  · intro h item hMem inner hInside
    exact h inner (.setItem hMem hInside)
  · intro h inner hInside
    cases hInside with
    | setItem hMem hInside => exact h _ hMem inner hInside

/-- No map stands in a value that is no container. -/
theorem everyMap_of_not_isContainer {v : Value} (h : v.isContainer = false) : EveryMap P v := by
  intro entries hInside
  cases hInside with
  | self | listItem | setItem | entry => cases h

end

/-- The maps in the value, at every depth, have their entries in order. -/
def InOrder (v : Value) : Prop :=
  EveryMap Dict.Ordered v

theorem inOrder_map {entries : Dict Value} :
    InOrder (.map entries) ↔ entries.Ordered ∧ ∀ entry ∈ entries, InOrder entry.2 :=
  everyMap_map

theorem inOrder_empty : InOrder (.map []) :=
  inOrder_map.mpr ⟨List.Pairwise.nil, nofun⟩

/-- What is found under a key of a map in order is in order, and nothing is as well. -/
theorem InOrder.entriesOf {entries : Dict Value} (h : InOrder (.map entries)) (key : String) :
    InOrder (.map (entriesOf (Dict.get? key entries))) := by
  cases hFound : Dict.get? key entries with
  | none => exact inOrder_empty
  | some v =>
    cases v with
    | map next => exact (inOrder_map.mp h).2 _ (Dict.mem_of_get? hFound)
    | _ => exact inOrder_empty

end Value

/-- Loaded values are in order. -/
theorem Loaded.inOrder {marker : String} {deferred : Bool} {v : Value}
    (h : Loaded marker deferred v) : v.InOrder := by
  induction h with
  | list _ ih => exact Value.everyMap_list.mpr ih
  | map _ hOrdered _ _ ih => exact Value.inOrder_map.mpr ⟨hOrdered, ih⟩
  | _ => exact Value.everyMap_of_not_isContainer rfl

/-! ## Writes -/

namespace Tree

/-- Writes a value under a list of keys. Null takes out what is there. -/
def write (keys : List String) (value : Value) (tree : Dict Value) : Dict Value :=
  if value.isNull then (Tree.remove? keys tree).getD tree else Tree.set keys value tree

/-- What a write makes of the value under the first of its keys, when the others follow. A
removal stops at what is no map, and setting puts a map in its place. -/
def writeBelow (keys : List String) (value : Value) (found : Option Value) : Option Value :=
  if keys = [] then if value.isNull then none else some value
  else if value.isNull && (found.bind Value.asMap?).isNone then found
  else some (.map (write keys value (Value.entriesOf found)))

variable {keys : List String} {value : Value} {tree next : Dict Value}

theorem writeBelow_nil (value : Value) (found : Option Value) :
    writeBelow [] value found = if value.isNull then none else some value :=
  if_pos rfl

theorem writeBelow_map (hKeys : keys ≠ []) (value : Value) (next : Dict Value) :
    writeBelow keys value (some (.map next)) = some (.map (write keys value next)) := by
  rw [writeBelow, if_neg hKeys]
  simp [Value.asMap?, Value.entriesOf]

theorem writeBelow_of_isNull (hKeys : keys ≠ []) (hValue : value.isNull = true)
    {found : Option Value} (hFound : found.bind Value.asMap? = none) :
    writeBelow keys value found = found := by
  rw [writeBelow, if_neg hKeys, hValue, hFound]
  rfl

theorem writeBelow_of_not_isNull (hKeys : keys ≠ []) (hValue : value.isNull = false)
    (found : Option Value) :
    writeBelow keys value found = some (.map (write keys value (Value.entriesOf found))) := by
  rw [writeBelow, if_neg hKeys, hValue]
  rfl

/-- **A write changes the entry under its first key**, and no other. -/
theorem write_cons (hTree : tree.Ordered) (key : String) (keys : List String) (value : Value) :
    write (key :: keys) value tree = tree.alter key (writeBelow keys value) := by
  cases hValue : value.isNull with
  | false =>
    -- any value but null is set
    rw [write, hValue, if_neg Bool.false_ne_true, set_cons]
    by_cases hKeys : keys = []
    · subst hKeys
      rw [Dict.alter, writeBelow_nil, hValue]
      rfl
    · rw [if_neg hKeys, Dict.alter, writeBelow_of_not_isNull hKeys hValue]
      dsimp only
      rw [write, hValue, if_neg Bool.false_ne_true]
  | true =>
    -- null removes
    rw [write, if_pos hValue]
    cases keys with
    | nil =>
      rw [Dict.alter, writeBelow_nil, if_pos hValue]
      rfl
    | cons other keys =>
      have hKeys : other :: keys ≠ [] := List.cons_ne_nil other keys
      rw [remove?_cons_cons]
      split
      · next next hNext =>
        rw [Dict.alter, hNext, writeBelow_map hKeys, write, if_pos hValue]
        dsimp only
        cases Tree.remove? (other :: keys) next with
        | some inner => rfl
        | none =>
          -- the removal is blocked further down, and the map is put back as it was
          have hSame : tree.alter key (fun _ => some (.map next)) = tree :=
            hTree.alter_eq_self hNext.symm
          exact hSame.symm
      · next hNoMap =>
        -- in what is no map nothing is removed
        have hFound : (tree.get? key).bind Value.asMap? = none := by
          cases hKey : tree.get? key with
          | none => rfl
          | some v =>
            cases v with
            | map next => exact absurd hKey (hNoMap next)
            | _ => rfl
        exact (hTree.alter_eq_self (writeBelow_of_isNull hKeys hValue hFound)).symm

/-- Nothing can be removed from a map without entries. -/
theorem write_empty (hValue : value.isNull = true) (keys : List String) :
    write keys value [] = [] := by
  rw [write, if_pos hValue]
  cases keys with
  | nil => rfl
  | cons key keys => cases keys <;> rfl

/-- Writing keeps a tree in order. -/
theorem inOrder_write (hKeys : keys ≠ []) (hTree : (Value.map tree).InOrder)
    (hValue : value.InOrder) : (Value.map (write keys value tree)).InOrder := by
  induction keys generalizing tree with
  | nil => exact absurd rfl hKeys
  | cons key keys ih =>
    obtain ⟨hOrdered, hEntries⟩ := Value.inOrder_map.mp hTree
    rw [write_cons hOrdered]
    refine Value.inOrder_map.mpr ⟨hOrdered.alter key _, fun entry hMem => ?_⟩
    rcases Dict.mem_of_mem_alter hMem with hChanged | hMem
    · -- the changed entry: the value itself, what was there before, or a map that was written to
      unfold writeBelow at hChanged
      split at hChanged
      · split at hChanged
        · cases hChanged
        · rw [Option.some.inj hChanged]
          exact hValue
      · next hRest =>
        split at hChanged
        · exact hEntries (key, entry.2) (Dict.mem_of_get? hChanged.symm)
        · rw [Option.some.inj hChanged]
          exact ih hRest (hTree.entriesOf key)
    · exact hEntries entry hMem

end Tree

/-! ## Stores -/

namespace Store

/-- The tree of the store is in order. -/
def InOrder (s : Store) : Prop :=
  (Value.map s.root).InOrder

/-- Setting a value, null included, is a write. -/
theorem root_set_eq_write (s : Store) (path : String) (value : Value) :
    (s.set path value).root = Tree.write (Path.segments path) value s.root := by
  cases hValue : value.isNull with
  | false => rw [root_set hValue, Tree.write, hValue, if_neg Bool.false_ne_true]
  | true => rw [Store.set, if_pos hValue, root_remove, Tree.write, if_pos hValue]

theorem InOrder.load {s loaded : Store} {document : Document} (h : s.load document = .ok loaded) :
    loaded.InOrder :=
  (loaded_root h).1.inOrder

theorem InOrder.set {s : Store} (h : s.InOrder) (path : String) {value : Value}
    (hValue : value.InOrder) : (s.set path value).InOrder := by
  unfold InOrder
  rw [root_set_eq_write]
  by_cases hPath : Path.segments path = []
  · -- at the root, a map takes the place of the tree and null empties it
    rw [hPath]
    cases value with
    | map entries => exact hValue
    | null => exact Value.inOrder_empty
    | _ => exact h
  · exact Tree.inOrder_write hPath h hValue

theorem InOrder.apply {s : Store} (h : s.InOrder) {edit : Edit}
    (hEdit : ∀ path value, edit = .set path value → value.InOrder) : (edit.apply s).InOrder := by
  cases edit with
  | set path value => exact h.set path (hEdit path value rfl)
  | remove path =>
    -- a removal writes null
    have hNull : Value.null.InOrder := Value.everyMap_of_not_isContainer rfl
    exact h.set path hNull
  | attach path lines onKey =>
    -- attaching leaves the tree alone
    show (s.attachComment path lines onKey).InOrder
    unfold Store.attachComment
    split <;> exact h

/-- A store stays in order along every run of edits that set values in order. -/
theorem InOrder.run {s : Store} (h : s.InOrder) {edits : List Edit}
    (hEdits : ∀ path value, .set path value ∈ edits → value.InOrder) : (s.run edits).InOrder := by
  induction edits generalizing s with
  | nil => exact h
  | cons edit edits ih =>
    rw [run_cons]
    refine ih (h.apply fun path value hSet => ?_) fun path value hMem =>
      hEdits path value (List.mem_cons_of_mem _ hMem)
    exact hEdits path value (hSet ▸ List.mem_cons_self ..)

end Store

end TypedConfig
