import TypedConfig.Proofs.Dict
import TypedConfig.Store

/-!
# Reading after writing

Setting a value or removing one changes what is read at its path, above it and
below it, and nothing else. Two paths are compared by their segments, so the
laws are laws of trees first: `Tree.set` and `Tree.remove?` are walks that
rebuild the maps on their way, and `Value.reach?` is the walk that reads.

A removal can find its way blocked by something that is no map. Nothing is
under its keys then, and it changes nothing; `Value.Without` covers both cases.

Main results:

* `Tree.get?_set_below` / `Tree.get?_set_apart` / `Tree.get?_set_above` — what is
  read after setting, by how the two paths lie.
* `Tree.without_removed` — a removal takes out the entry under its keys.
* `Value.Without.reach?_below` / `reach?_apart` / `reach?_above` — what is read
  once an entry is taken out.
* `Store.read_after_write` — all of it, for the paths of a store.
-/

namespace TypedConfig

/-! ## Walking down a value -/

namespace Value

/-- The value found by walking down along keys: the value itself under no keys, and
nothing where something on the way is no map. -/
def reach? : List String → Value → Option Value
  | [], v => some v
  | key :: keys, .map entries => (Dict.get? key entries).bind (reach? keys)
  | _ :: _, _ => none

/-- The entries of a value that may be absent. What is no map has none. -/
def entriesOf (v : Option Value) : Dict Value :=
  (v.bind asMap?).getD []

theorem reach?_cons_map (key : String) (keys : List String) (entries : Dict Value) :
    reach? (key :: keys) (.map entries) = (Dict.get? key entries).bind (reach? keys) :=
  rfl

theorem reach?_append (keys below : List String) (v : Value) :
    v.reach? (keys ++ below) = (v.reach? keys).bind (reach? below) := by
  induction keys generalizing v with
  | nil => rfl
  | cons key keys ih =>
    cases v with
    | map entries =>
      rw [List.cons_append, reach?_cons_map, reach?_cons_map, Option.bind_assoc]
      exact congrArg _ (funext ih)
    | _ => rfl

/-- Below a key only the entries of a value matter. -/
theorem reach?_cons_entriesOf (key : String) (keys : List String) (v : Option Value) :
    reach? (key :: keys) (.map (entriesOf v)) = v.bind (reach? (key :: keys)) := by
  cases v with
  | none => rfl
  | some v => cases v <;> rfl

end Value

theorem Tree.get?_eq_reach? (keys : List String) (tree : Dict Value) :
    Tree.get? keys tree = (Value.map tree).reach? keys := by
  induction keys generalizing tree with
  | nil => rfl
  | cons key keys ih =>
    rw [Value.reach?_cons_map]
    -- the last key reads an entry, and the others go on through maps
    cases keys with
    | nil =>
      show tree.get? key = (tree.get? key).bind some
      rw [Option.bind_fun_some]
    | cons other keys =>
      simp only [Tree.get?]
      cases tree.get? key with
      | none => rfl
      | some v =>
        cases v with
        | map next => exact ih next
        | _ => rfl

theorem Dict.erase_insert {α : Type u} (key : String) (value : α) (entries : Dict α) :
    (entries.insert key value).erase key = entries.erase key := by
  induction entries with
  | nil => simp [Dict.insert, Dict.erase]
  | cons entry rest ih =>
    rw [Dict.insert]
    split
    · next hSame => simp [Dict.erase, hSame]
    · next hDiffers =>
      split
      · simp [Dict.erase]
      · simpa [Dict.erase, hDiffers] using ih

/-! ## Setting a value -/

namespace Tree

/-- Setting writes one entry of the map it starts from: the value itself under the last
key, and otherwise the map that is found there or a new one, with the rest set
inside. -/
theorem set_cons (key : String) (keys : List String) (value : Value) (tree : Dict Value) :
    Tree.set (key :: keys) value tree =
      tree.insert key (if keys = [] then value
        else .map (Tree.set keys value (Value.entriesOf (tree.get? key)))) := by
  cases keys with
  | nil => rfl
  | cons other keys => rfl

/-- At the keys and below, the value that was set is read. -/
theorem get?_set_below {keys : List String} (hKeys : keys ≠ []) (below : List String)
    (value : Value) (tree : Dict Value) :
    Tree.get? (keys ++ below) (Tree.set keys value tree) = value.reach? below := by
  induction keys generalizing tree with
  | nil => exact absurd rfl hKeys
  | cons key keys ih =>
    rw [set_cons, get?_eq_reach?, List.cons_append, Value.reach?_cons_map, Dict.get?_insert_self,
      Option.bind_some]
    -- the last key has the value itself, and any other one a map to go on in
    by_cases hLast : keys = []
    · rw [if_pos hLast, hLast, List.nil_append]
    · rw [if_neg hLast, ← get?_eq_reach?]
      exact ih hLast _

/-- Under keys that neither lead to the place nor go on below it, nothing changes. -/
theorem get?_set_apart {keys other : List String} (hBelow : ¬keys <+: other)
    (hAbove : ¬other <+: keys) (value : Value) (tree : Dict Value) :
    Tree.get? other (Tree.set keys value tree) = Tree.get? other tree := by
  induction keys generalizing other tree with
  | nil => exact absurd (List.nil_prefix) hBelow
  | cons key keys ih =>
    cases other with
    | nil => exact absurd (List.nil_prefix) hAbove
    | cons first other =>
      rw [set_cons, get?_eq_reach?, get?_eq_reach?, Value.reach?_cons_map, Value.reach?_cons_map]
      by_cases hSame : first = key
      · subst hSame
        -- the paths part further down, so both of them go on
        have hRestBelow : ¬keys <+: other := fun h =>
          hBelow (List.cons_prefix_cons.mpr ⟨rfl, h⟩)
        have hRestAbove : ¬other <+: keys := fun h =>
          hAbove (List.cons_prefix_cons.mpr ⟨rfl, h⟩)
        have hLast : keys ≠ [] := fun h => hRestBelow (h ▸ List.nil_prefix)
        rw [Dict.get?_insert_self, Option.bind_some, if_neg hLast, ← get?_eq_reach?,
          ih hRestBelow hRestAbove, get?_eq_reach?]
        cases other with
        | nil => exact absurd (List.nil_prefix) hRestAbove
        | cons second other => exact Value.reach?_cons_entriesOf second other _
      · -- the paths part here, and another entry is written
        rw [Dict.get?_insert_of_ne hSame]

/-- On the way to the place there are maps, and their other entries are those that were
there before. -/
theorem get?_set_above (above : List String) (key : String) (below : List String) (value : Value)
    (tree : Dict Value) :
    ∃ entries, Tree.get? above (Tree.set (above ++ key :: below) value tree) =
        some (.map entries) ∧
      Dict.erase key entries = Dict.erase key (Value.entriesOf (Tree.get? above tree)) := by
  induction above generalizing tree with
  | nil =>
    refine ⟨_, rfl, ?_⟩
    -- of the last map only the entry of the key is written
    rw [List.nil_append, set_cons]
    exact Dict.erase_insert ..
  | cons first above ih =>
    obtain ⟨entries, hGet, hErase⟩ := ih (Value.entriesOf (tree.get? first))
    refine ⟨entries, ?_, ?_⟩
    · rw [List.cons_append, set_cons, get?_eq_reach?, Value.reach?_cons_map,
        Dict.get?_insert_self, Option.bind_some, if_neg (by simp), ← get?_eq_reach?]
      exact hGet
    · rw [hErase]
      -- a map that was not there before has no entries, and neither has what was there instead
      congr 1
      rw [get?_eq_reach? (first :: above), Value.reach?_cons_map, get?_eq_reach?]
      cases above with
      | nil =>
        cases tree.get? first with
        | none => rfl
        | some v => cases v <;> rfl
      | cons second above => rw [Value.reach?_cons_entriesOf]

end Tree

/-! ## Removing a value -/

/-- The second value is the first one without what is under the keys: the last of the
maps on the way has lost its entry, and the others have kept all entries but the one
that leads further. Where nothing is under the keys, the values are the same. -/
inductive Value.Without : List String → Value → Value → Prop
  | entry (key : String) (entries : Dict Value) :
      Without [key] (.map entries) (.map (Dict.erase key entries))
  | inside {key : String} {keys : List String} {entries entries' : Dict Value} {v v' : Value} :
      Dict.get? key entries = some v → Without keys v v' → Dict.get? key entries' = some v' →
      Dict.erase key entries' = Dict.erase key entries →
      Without (key :: keys) (.map entries) (.map entries')
  | absent {keys : List String} {v : Value} : v.reach? keys = none → Without keys v v

namespace Tree

theorem remove?_cons_cons (key other : String) (keys : List String) (tree : Dict Value) :
    Tree.remove? (key :: other :: keys) tree =
      match tree.get? key with
      | some (.map next) =>
        (Tree.remove? (other :: keys) next).map fun next => tree.insert key (.map next)
      | _ => none :=
  rfl

/-- A removal that is blocked would have found nothing. -/
theorem get?_eq_none_of_remove? {keys : List String} {tree : Dict Value}
    (h : Tree.remove? keys tree = none) : Tree.get? keys tree = none := by
  induction keys generalizing tree with
  | nil => cases h
  | cons key keys ih =>
    cases keys with
    | nil => cases h
    | cons other keys =>
      rw [remove?_cons_cons] at h
      rw [get?_eq_reach?, Value.reach?_cons_map]
      split at h
      · -- the removal is blocked further down, in a map
        next next hNext =>
        rw [hNext, Option.bind_some, ← get?_eq_reach?]
        exact ih (Option.map_eq_none_iff.mp h)
      · -- the removal is blocked here, by what is no map
        next hNoMap =>
        cases hValue : tree.get? key with
        | none => rfl
        | some v =>
          cases v with
          | map next => exact absurd hValue (hNoMap next)
          | _ => rfl

theorem without_of_remove? {keys : List String} (hKeys : keys ≠ []) {tree removed : Dict Value}
    (h : Tree.remove? keys tree = some removed) :
    Value.Without keys (.map tree) (.map removed) := by
  induction keys generalizing tree removed with
  | nil => exact absurd rfl hKeys
  | cons key keys ih =>
    cases keys with
    | nil =>
      cases h
      exact .entry key tree
    | cons other keys =>
      rw [remove?_cons_cons] at h
      split at h
      · -- the entry goes from a map further down
        next next hNext =>
        obtain ⟨inner, hInner, rfl⟩ := Option.map_eq_some_iff.mp h
        exact .inside hNext (ih (List.cons_ne_nil other keys) hInner) (Dict.get?_insert_self ..)
          (Dict.erase_insert ..)
      · cases h

/-- Removing takes out what is under the keys, blocked or not. -/
theorem without_removed {keys : List String} (hKeys : keys ≠ []) (tree : Dict Value) :
    Value.Without keys (.map tree) (.map ((Tree.remove? keys tree).getD tree)) := by
  cases h : Tree.remove? keys tree with
  | none =>
    refine .absent ?_
    rw [← get?_eq_reach?]
    exact get?_eq_none_of_remove? h
  | some removed => exact without_of_remove? hKeys h

end Tree

namespace Value.Without

/-- At the keys and below, nothing is left. -/
theorem reach?_below {keys : List String} {v v' : Value} (h : Without keys v v')
    (below : List String) : v'.reach? (keys ++ below) = none := by
  induction h with
  | entry key entries =>
    rw [List.singleton_append, reach?_cons_map, Dict.get?_erase_self, Option.bind_none]
  | inside _ _ hEntry _ ih =>
    rw [List.cons_append, reach?_cons_map, hEntry, Option.bind_some]
    exact ih
  | absent hAbsent => rw [reach?_append, hAbsent, Option.bind_none]

/-- An entry that is not taken out is read as before. -/
theorem get?_of_erase_eq {key other : String} (hOther : other ≠ key) {entries entries' : Dict Value}
    (h : Dict.erase key entries' = Dict.erase key entries) :
    Dict.get? other entries' = Dict.get? other entries := by
  rw [← Dict.get?_erase_of_ne hOther entries', h, Dict.get?_erase_of_ne hOther]

theorem reach?_apart {keys other : List String} {v v' : Value} (h : Without keys v v')
    (hBelow : ¬keys <+: other) (hAbove : ¬other <+: keys) : v'.reach? other = v.reach? other := by
  induction h generalizing other with
  | entry key entries =>
    cases other with
    | nil => exact absurd (List.nil_prefix) hAbove
    | cons first other =>
      -- a path through this entry would lead below the keys
      have hFirst : first ≠ key := by
        rintro rfl
        exact hBelow (List.cons_prefix_cons.mpr ⟨rfl, List.nil_prefix⟩)
      rw [reach?_cons_map, reach?_cons_map, Dict.get?_erase_of_ne hFirst]
  | @inside key keys entries entries' w w' hBefore _ hAfter hOthers ih =>
    cases other with
    | nil => exact absurd (List.nil_prefix) hAbove
    | cons first other =>
      rw [reach?_cons_map, reach?_cons_map]
      by_cases hFirst : first = key
      · -- the paths part further down
        subst hFirst
        rw [hBefore, hAfter, Option.bind_some, Option.bind_some]
        exact ih (fun h => hBelow (List.cons_prefix_cons.mpr ⟨rfl, h⟩))
          fun h => hAbove (List.cons_prefix_cons.mpr ⟨rfl, h⟩)
      · -- the paths part here, and this entry stays
        rw [get?_of_erase_eq hFirst hOthers]
  | absent => rfl

/-- On the way to the place, a value is left without the rest of the keys. -/
theorem reach?_above {above below : List String} (hBelow : below ≠ []) {v v' : Value}
    (h : Without (above ++ below) v v') :
    Option.Rel (Without below) (v.reach? above) (v'.reach? above) := by
  induction above generalizing v v' with
  | nil => exact .some h
  | cons first above ih =>
    rw [List.cons_append] at h
    generalize hKeys : first :: (above ++ below) = keys at h
    cases h with
    | entry key entries =>
      -- the entry itself goes only with the last key
      obtain ⟨-, hNil⟩ := List.cons.inj hKeys
      exact absurd (List.append_eq_nil_iff.mp hNil).2 hBelow
    | inside hBefore hInner hAfter hOthers =>
      obtain ⟨rfl, rfl⟩ := List.cons.inj hKeys
      rw [reach?_cons_map, reach?_cons_map, hBefore, hAfter]
      exact ih hInner
    | absent hAbsent =>
      -- whatever is on the way, nothing is under the rest of the keys
      rw [← hKeys, ← List.cons_append, reach?_append] at hAbsent
      cases hReach : v.reach? (first :: above) with
      | none => exact .none
      | some w =>
        rw [hReach, Option.bind_some] at hAbsent
        exact .some (.absent hAbsent)

end Value.Without

/-! ## Stores -/

namespace Store

theorem root_set {value : Value} (hValue : value.isNull = false) (s : Store) (path : String) :
    (s.set path value).root = Tree.set (Path.segments path) value s.root := by
  rw [Store.set, hValue]
  rfl

theorem root_remove (s : Store) (path : String) :
    (s.remove path).root = (Tree.remove? (Path.segments path) s.root).getD s.root := by
  unfold Store.remove
  dsimp only
  cases Tree.remove? (Path.segments path) s.root <;> rfl

theorem without_remove (s : Store) {path : String} (hPath : Path.segments path ≠ []) :
    Value.Without (Path.segments path) (.map s.root) (.map (s.remove path).root) := by
  rw [root_remove]
  exact Tree.without_removed hPath s.root

theorem get?_eq_reach? (s : Store) (path : String) :
    s.get? path = (Value.map s.root).reach? (Path.segments path) :=
  Tree.get?_eq_reach? ..

/-- At the path and below, a value that was set is read back. -/
theorem get?_set_of_below (s : Store) {path other : String} {below : List String}
    (hPath : Path.segments path ≠ [])
    (hBelow : Path.segments other = Path.segments path ++ below) {value : Value}
    (hValue : value.isNull = false) : (s.set path value).get? other = value.reach? below := by
  rw [Store.get?, root_set hValue, hBelow]
  exact Tree.get?_set_below hPath below value s.root

/-- **A store reads back what was written, and nothing else changes.** After a value is
set, it is read at the path and below; apart from the path everything is as before;
above it there are maps, which keep their other entries. After a removal, nothing is
at the path and below; apart from it everything is as before; and what is above it has
lost the entry. -/
theorem read_after_write (s : Store) {path : String} (hPath : Path.segments path ≠ []) :
    (∀ value : Value, value.isNull = false → ∀ other : String,
      (∀ below, Path.segments other = Path.segments path ++ below →
        (s.set path value).get? other = value.reach? below) ∧
      (¬Path.segments path <+: Path.segments other →
        ¬Path.segments other <+: Path.segments path →
          (s.set path value).get? other = s.get? other) ∧
      ∀ key below, Path.segments path = Path.segments other ++ key :: below →
        ∃ entries, (s.set path value).get? other = some (.map entries) ∧
          Dict.erase key entries = Dict.erase key (Value.entriesOf (s.get? other))) ∧
    ∀ other : String,
      (Path.segments path <+: Path.segments other →
        (s.remove path).get? other = none ∧ (s.remove path).contains other = false) ∧
      (¬Path.segments path <+: Path.segments other →
        ¬Path.segments other <+: Path.segments path →
          (s.remove path).get? other = s.get? other) ∧
      ∀ below, below ≠ [] → Path.segments path = Path.segments other ++ below →
        Option.Rel (Value.Without below) (s.get? other) ((s.remove path).get? other) := by
  refine ⟨fun value hValue other => ⟨fun below hBelow => ?_, fun hBelow hAbove => ?_,
    fun key below hAbove => ?_⟩, fun other => ⟨?_, fun hBelow hAbove => ?_,
    fun below hRest hAbove => ?_⟩⟩
  · -- set: at the path and below
    exact s.get?_set_of_below hPath hBelow hValue
  · -- set: apart from it
    rw [Store.get?, root_set hValue]
    exact Tree.get?_set_apart hBelow hAbove value s.root
  · -- set: above it
    rw [Store.get?, root_set hValue, hAbove]
    exact Tree.get?_set_above (Path.segments other) key below value s.root
  · -- removed: at the path and below
    rintro ⟨below, hBelow⟩
    have hNone : (s.remove path).get? other = none := by
      rw [get?_eq_reach?, ← hBelow]
      exact (s.without_remove hPath).reach?_below below
    exact ⟨hNone, by rw [Store.contains, hNone, Option.isSome_none]⟩
  · -- removed: apart from it
    rw [get?_eq_reach?, get?_eq_reach?]
    exact (s.without_remove hPath).reach?_apart hBelow hAbove
  · -- removed: above it
    have hWithout := s.without_remove hPath
    rw [hAbove] at hWithout
    rw [get?_eq_reach?, get?_eq_reach?]
    exact Value.Without.reach?_above hRest hWithout

/-- A tree with a key that has a dot in it, and a null below a number's neighbour. -/
def dottedStore : Store :=
  .ofRoot [("a", .map [("b", .long 1), ("c", .map [("d", .null)])]), ("a.b", .string "dotted")]

/-- The path has an empty piece and leads through a number, which gives way to a map;
the null beside it stays, and a removal takes out what is there. -/
theorem dottedStore_written :
    Path.segments "a..b.x" ≠ [] ∧
      (dottedStore.set "a..b.x" (.list [.null])).get? "a.b.x." = some (.list [.null]) ∧
      (dottedStore.set "a..b.x" (.list [.null])).get? "a.c.d" = some .null ∧
      (∃ entries, (dottedStore.set "a..b.x" (.list [.null])).get? "a.b" = some (.map entries) ∧
        Dict.erase "x" entries = []) ∧
      Path.segments ".a.c" ≠ [] ∧
      (dottedStore.remove ".a.c").get? "a.c.d" = none ∧
      (dottedStore.remove ".a.c").get? "a.b" = some (.long 1) := by
  have hSet : Path.segments "a..b.x" ≠ [] := by decide
  have hRemove : Path.segments ".a.c" ≠ [] := by decide
  obtain ⟨hBelow, -, -⟩ := (read_after_write dottedStore hSet).1 (.list [.null]) rfl "a.b.x."
  obtain ⟨-, hApart, -⟩ := (read_after_write dottedStore hSet).1 (.list [.null]) rfl "a.c.d"
  obtain ⟨-, -, hAbove⟩ := (read_after_write dottedStore hSet).1 (.list [.null]) rfl "a.b"
  obtain ⟨hGone, -, -⟩ := (read_after_write dottedStore hRemove).2 "a.c.d"
  obtain ⟨-, hKept, -⟩ := (read_after_write dottedStore hRemove).2 "a.b"
  exact ⟨hSet, hBelow [] (by decide), hApart (by decide) (by decide), hAbove "x" [] (by decide),
    hRemove, (hGone (by decide)).1, hKept (by decide) (by decide)⟩

end Store

end TypedConfig
