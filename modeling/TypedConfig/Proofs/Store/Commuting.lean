import TypedConfig.Proofs.Store.Order

/-!
# Writes to separate places

Two writes commute when neither path leads to the other or below it. They may share the
first keys of their paths all the same, and then either of them may have to make the maps
on the way, in place of what stands there, while a removal makes none and stops. So the
induction is on the keys of one path, and at each shared key the question is what both
writes make of the value there. Where the paths part, the writes change different entries
of one map.

Of two values that are set at one path the second one stays. The empty path is an
exception, because it takes maps only: any other value that is set there is passed over.

Main results:

* `Tree.write_comm` — writes under keys that lie apart commute.
* `Tree.set_set` — a value that is set again leaves no trace of the first one.
* `Store.writes_commute` — both for the paths of a store.
-/

namespace TypedConfig

namespace Tree

variable {keys other : List String} {v w : Value} {tree : Dict Value}

/-! ## Writes that lie apart -/

/-- Writes below one key commute if they do in the map there, and in the empty map that may
take the place of something else. -/
theorem writeBelow_comm (hKeys : keys ≠ []) (hOther : other ≠ []) (found : Option Value)
    (hSame : write other w (write keys v (Value.entriesOf found)) =
      write keys v (write other w (Value.entriesOf found))) :
    writeBelow other w (writeBelow keys v found) =
      writeBelow keys v (writeBelow other w found) := by
  cases hMap : found.bind Value.asMap? with
  | some next =>
    -- both values go into the map that is there
    obtain rfl : found = some (.map next) := by
      obtain ⟨value, rfl, hValue⟩ := Option.bind_eq_some_iff.mp hMap
      cases value <;> cases hValue
      rfl
    rw [writeBelow_map hKeys, writeBelow_map hOther, writeBelow_map hOther, writeBelow_map hKeys]
    exact congrArg (fun entries => some (Value.map entries)) hSame
  | none =>
    -- there is none, so the writes start from an empty map
    have hEntries : Value.entriesOf found = [] := by rw [Value.entriesOf, hMap, Option.getD_none]
    rw [hEntries] at hSame
    cases hv : v.isNull with
    | true =>
      -- nothing is removed, neither before nor after
      rw [writeBelow_of_isNull hKeys hv hMap]
      cases hw : w.isNull with
      | true => rw [writeBelow_of_isNull hOther hw hMap, writeBelow_of_isNull hKeys hv hMap]
      | false =>
        rw [writeBelow_of_not_isNull hOther hw, hEntries, writeBelow_map hKeys, ← hSame,
          write_empty hv]
    | false =>
      -- the first value makes a map, and the second one goes into it
      rw [writeBelow_of_not_isNull hKeys hv, writeBelow_map hOther, hEntries, hSame]
      cases hw : w.isNull with
      | true =>
        rw [writeBelow_of_isNull hOther hw hMap, writeBelow_of_not_isNull hKeys hv, hEntries,
          write_empty hw]
      | false => rw [writeBelow_of_not_isNull hOther hw, writeBelow_map hKeys, hEntries]

/-- **Writes under keys that lie apart commute**, null included. -/
theorem write_comm (hBelow : ¬keys <+: other) (hAbove : ¬other <+: keys) (v w : Value)
    (hTree : (Value.map tree).InOrder) :
    write other w (write keys v tree) = write keys v (write other w tree) := by
  induction keys generalizing other tree with
  | nil => exact absurd List.nil_prefix hBelow
  | cons key keys ih =>
    cases other with
    | nil => exact absurd List.nil_prefix hAbove
    | cons first other =>
      have hOrdered : tree.Ordered := (Value.inOrder_map.mp hTree).1
      -- each write changes a single entry
      rw [write_cons hOrdered, write_cons hOrdered, write_cons (hOrdered.alter key _),
        write_cons (hOrdered.alter first _)]
      by_cases hFirst : key = first
      · subst hFirst
        -- the paths part further down, so both of them go on
        have hRestBelow : ¬keys <+: other := fun h =>
          hBelow (List.cons_prefix_cons.mpr ⟨rfl, h⟩)
        have hRestAbove : ¬other <+: keys := fun h =>
          hAbove (List.cons_prefix_cons.mpr ⟨rfl, h⟩)
        have hKeys : keys ≠ [] := fun h => hRestBelow (h ▸ List.nil_prefix)
        have hOther : other ≠ [] := fun h => hRestAbove (h ▸ List.nil_prefix)
        rw [hOrdered.alter_alter, hOrdered.alter_alter]
        refine Dict.alter_congr (writeBelow_comm hKeys hOther _ ?_)
        exact ih hRestBelow hRestAbove (hTree.entriesOf key)
      · -- different entries are changed separately
        exact hOrdered.alter_comm hFirst _ _

/-! ## Writes to one place -/

/-- Of two values that are set under the same keys, the second one stays. -/
theorem set_set (hKeys : keys ≠ []) (v w : Value) (tree : Dict Value) :
    Tree.set keys w (Tree.set keys v tree) = Tree.set keys w tree := by
  induction keys generalizing tree with
  | nil => exact absurd rfl hKeys
  | cons key keys ih =>
    rw [set_cons, set_cons, set_cons, Dict.insert_insert, Dict.get?_insert_self]
    -- the last key has the value itself, and any other one a map to go on in
    by_cases hLast : keys = []
    · rw [if_pos hLast, if_pos hLast]
    · rw [if_neg hLast, if_neg hLast, if_neg hLast]
      exact congrArg (fun entries => Dict.insert key (.map entries) tree) (ih hLast _)

theorem set_nil (value : Value) (tree : Dict Value) :
    Tree.set [] value tree = value.asMap?.getD tree :=
  rfl

end Tree

/-! ## Stores -/

namespace Store

/-- **Writes to separate places commute, and the last write to one place counts.** In a
store whose maps are in order, writes at two paths of which neither leads to the other or
below it leave the same tree in either order, null included. Of two values that are not
null and set at the same path, the first one leaves no trace, except at the empty path:
there a map is set, and stays when something is set that is no map. -/
theorem writes_commute (s : Store) :
    (s.InOrder → ∀ p q, ¬Path.segments p <+: Path.segments q →
      ¬Path.segments q <+: Path.segments p → ∀ v w,
        ((s.set p v).set q w).root = ((s.set q w).set p v).root) ∧
    ∀ p v w, v.isNull = false → w.isNull = false →
      (((s.set p v).set p w).root = (s.set p w).root ↔
        Path.segments p ≠ [] ∨ w.asMap? ≠ none ∨ v.asMap?.getD s.root = s.root) := by
  refine ⟨fun hOrder p q hBelow hAbove v w => ?_, fun p v w hv hw => ?_⟩
  · -- at separate places, null included
    rw [root_set_eq_write, root_set_eq_write, root_set_eq_write, root_set_eq_write]
    exact Tree.write_comm hBelow hAbove v w hOrder
  · -- at one place, without null
    rw [root_set hw, root_set hv, root_set hw]
    by_cases hPath : Path.segments p = []
    -- at the root only maps are set
    · rw [hPath, Tree.set_nil, Tree.set_nil, Tree.set_nil]
      cases hMap : w.asMap? with
      | some entries => simp
      | none => simp
    · exact iff_of_true (Tree.set_set hPath v w s.root) (.inl hPath)

/-- The limits of a service, with a number where a map will be. -/
def limitsDocument : Document :=
  .object [("limits", .object [("name", .string "small"), ("size", .integer 1)])]

def limitsStore : Store :=
  .ofRoot [("limits", .map [("name", .string "small"), ("size", .long 1)])]

theorem limitsStore_inOrder : limitsStore.InOrder := by
  have hLoad : Store.empty.load limitsDocument = .ok limitsStore := rfl
  exact .load hLoad

/-- The number gives way to a map whether its sibling is removed before or after, and of two
numbers the second one stays. -/
theorem limitsStore_written :
    limitsStore.InOrder ∧
      ((limitsStore.set "limits.size.max" (.long 5)).set "limits..name" .null).root =
        ((limitsStore.set "limits..name" .null).set "limits.size.max" (.long 5)).root ∧
      ((limitsStore.set "limits.size.max" (.long 5)).set "limits..name" .null).root =
        [("limits", .map [("size", .map [("max", .long 5)])])] ∧
      ((limitsStore.set "limits.size.max" (.long 5)).set "limits.size.max" (.long 6)).root =
        (limitsStore.set "limits.size.max" (.long 6)).root := by
  obtain ⟨hApart, hAgain⟩ := writes_commute limitsStore
  exact ⟨limitsStore_inOrder, hApart limitsStore_inOrder _ _ (by decide) (by decide) _ _, rfl,
    (hAgain _ _ _ rfl rfl).mpr (.inl (by decide))⟩

/-- At the empty path the first of two values leaves a trace: a map that was set there stays
when a number is, while the number alone would have changed nothing. -/
theorem root_write_stays :
    (Value.map [("a", .long 1)]).isNull = false ∧ (Value.long 5).isNull = false ∧
      ((Store.empty.set "" (.map [("a", .long 1)])).set "" (.long 5)).root = [("a", .long 1)] ∧
      (Store.empty.set "" (.long 5)).root = [] ∧
      ((Store.empty.set "" (.map [("a", .long 1)])).set "" (.long 5)).root ≠
        (Store.empty.set "" (.long 5)).root :=
  ⟨rfl, rfl, rfl, rfl, nofun⟩

end Store

end TypedConfig
