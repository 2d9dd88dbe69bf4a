import TypedConfig.Proofs.Relocation
import TypedConfig.Proofs.Store.Writing

/-!
# Walking a map and asking the store

A path is read in two ways. In a map that was fetched before it is walked piece by
piece, and a blank piece is an error; the store takes the segments of the path that are
not empty and descends. A walk gives up at the first piece that leads to no map, so a
blank piece is an error only where all pieces before it lead through maps. Where no piece
is blank, both ways come to the same.

The pieces of a path are those between its dots. A dot at the end opens no piece of its
own.

Main results:

* `Path.steps_eq_keptPieces` — the pieces that a walk takes one by one.
* `Resolution.walk_eq_error_iff` — a walk fails exactly when it meets a blank key.
* `Resolution.resolve_like_get?` — both ways of reading a path, side by side.
-/

namespace TypedConfig

/-! ## The pieces of a path -/

namespace Path

/-- The texts between the dots; of several, an empty one at the end does not count. -/
def keptPieces (path : String) : List String :=
  if 1 < (pieces path).length ∧ (pieces path).getLast? = some "" then (pieces path).dropLast
  else pieces path

theorem splitChars_eq_singleton {cs piece : List Char} (h : splitChars cs = [piece]) :
    piece = cs := by
  induction cs generalizing piece with
  | nil => exact (List.singleton_inj.mp h).symm
  | cons c cs ih =>
    by_cases hDot : c = '.'
    · -- a dot would leave a second piece behind it
      rw [splitChars, if_pos hDot] at h
      exact absurd (List.cons.inj h).2 (splitChars_ne_nil cs)
    · -- the first piece goes on with the rest of the text
      obtain ⟨first, rest, hTail, hCons⟩ := splitChars_cons_of_ne hDot cs
      rw [hCons] at h
      obtain ⟨rfl, rfl⟩ := List.cons.inj h
      rw [ih hTail]

/-- A path with a single piece is that piece. -/
theorem eq_of_pieces_eq_singleton {path piece : String} (h : pieces path = [piece]) :
    piece = path := by
  rw [pieces, List.map_eq_singleton_iff] at h
  obtain ⟨chars, hChars, rfl⟩ := h
  rw [splitChars_eq_singleton hChars, String.ofList_toList]

/-- A walk takes the pieces of a path one by one, and none of the empty path. -/
theorem steps_eq_keptPieces {path : String} (h : path ≠ "") : steps path = keptPieces path := by
  unfold steps keptPieces
  split
  · next piece hPieces =>
    -- the only piece is the path itself
    have hPiece : piece ≠ "" := fun hEmpty => h (eq_of_pieces_eq_singleton hPieces ▸ hEmpty)
    rw [if_neg hPiece, hPieces, if_neg (by simp)]
  · next hSeveral =>
    -- of several pieces both drop an empty last one
    have hLength : 1 < (pieces path).length := by
      match hPieces : pieces path with
      | [] => exact absurd hPieces (pieces_ne_nil path)
      | [piece] => exact absurd hPieces (hSeveral piece)
      | _ :: _ :: rest => simp
    simp [hLength]

end Path

namespace Resolution

/-! ## Walks that fail -/

/-- A walk along the keys meets a blank one: the keys before it lead through maps only. -/
def MeetsBlank (keys : List String) (source : Dict Value) : Prop :=
  ∃ before key after, keys = before ++ key :: after ∧ Text.isBlank key = true ∧
    ∃ inner, (Value.map source).reach? before = some (.map inner)

theorem not_meetsBlank_nil (source : Dict Value) : ¬MeetsBlank [] source := by
  rintro ⟨before, key, after, hKeys, -⟩
  simp at hKeys

/-- Either the first key is blank, or it leads to a map and a later one is met there. -/
theorem meetsBlank_cons {key : String} {keys : List String} {source : Dict Value} :
    MeetsBlank (key :: keys) source ↔
      Text.isBlank key = true ∨
        ∃ next, source.get? key = some (.map next) ∧ MeetsBlank keys next := by
  constructor
  · rintro ⟨before, blank, after, hKeys, hBlank, inner, hReach⟩
    cases before with
    | nil =>
      -- the blank key is the first one
      obtain ⟨rfl, -⟩ := List.cons.inj hKeys
      exact .inl hBlank
    | cons first before =>
      -- the first key has been passed, so it leads to a map
      obtain ⟨rfl, rfl⟩ := List.cons.inj hKeys
      rw [Value.reach?_cons_map, Option.bind_eq_some_iff] at hReach
      obtain ⟨v, hValue, hReach⟩ := hReach
      obtain ⟨next, rfl⟩ : ∃ next, v = .map next := by
        -- only from a map a map is reached
        cases v with
        | map next => exact ⟨next, rfl⟩
        | _ => cases before <;> cases hReach
      exact .inr ⟨next, hValue, before, blank, after, rfl, hBlank, inner, hReach⟩
  · rintro (hBlank | ⟨next, hNext, before, blank, after, rfl, hBlank, inner, hReach⟩)
    · -- nothing has to be passed before a blank first key
      exact ⟨[], key, keys, rfl, hBlank, source, rfl⟩
    · -- what is passed below the key is passed from above it
      refine ⟨key :: before, blank, after, rfl, hBlank, inner, ?_⟩
      rw [Value.reach?_cons_map, hNext, Option.bind_some, hReach]

/-- A walk fails exactly when it meets a blank key, and the error names the whole path. -/
theorem walk_eq_error_iff {path : String} {keys : List String} {source : Dict Value} {e : Error} :
    walk path keys source = .error e ↔
      e = .mapping (.blankKey path) ∧ MeetsBlank keys source := by
  induction keys generalizing source with
  | nil =>
    refine iff_of_false ?_ fun h => not_meetsBlank_nil source h.2
    intro hWalk
    cases hWalk
  | cons key keys ih =>
    rw [meetsBlank_cons]
    unfold walk
    cases hBlank : Text.isBlank key with
    | true => simp [eq_comm]
    | false =>
      rw [if_neg Bool.false_ne_true]
      cases keys with
      | nil =>
        refine iff_of_false ?_ ?_
        · -- the last key is looked up, whatever stands under it
          intro hWalk
          cases hWalk
        · rintro ⟨-, h | ⟨next, -, hMeets⟩⟩
          · cases h
          · exact not_meetsBlank_nil next hMeets
      | cons other keys =>
        dsimp only
        -- a walk goes on through maps only, and otherwise ends without an error
        cases hValue : source.get? key with
        | none => simp
        | some v =>
          cases v with
          | map next => simpa using ih
          | _ => simp

/-! ## Both ways of reading a path -/

/-- **A walk through a map reads what a store would.** In a map a path is refused, with an
error that names it, exactly when it is not empty and one of its pieces is blank while the
pieces before it lead through maps only. If the path is empty or has no blank piece, it
resolves to what a store with that map for its root holds at the path: the value that
stands there, none for an absent key or one below something that is no map, and the whole
map for the empty path. -/
theorem resolve_like_get? (store s : Store) (path : String) :
    (∀ e, resolve store path (some s.root) = .error e ↔
      e = .mapping (.blankKey path) ∧ path ≠ "" ∧ MeetsBlank (Path.keptPieces path) s.root) ∧
    (path = "" ∨ (∀ piece ∈ Path.keptPieces path, Text.isBlank piece = false) →
      resolve store path (some s.root) = .ok (s.get? path)) := by
  have hWalk : resolve store path (some s.root) = walk path (Path.steps path) s.root := rfl
  rw [hWalk]
  -- the empty path has no pieces, and at it stands the map itself
  by_cases hEmpty : path = ""
  · subst hEmpty
    exact ⟨fun e => iff_of_false nofun fun h => h.2.1 rfl, fun _ => rfl⟩
  · refine ⟨fun e => ?_, ?_⟩
    · -- an error is one of the walk
      rw [walk_eq_error_iff, Path.steps_eq_keptPieces hEmpty, and_iff_right hEmpty]
    · -- without blank pieces the steps of the walk are the segments
      rintro (hSame | hPieces)
      · exact absurd hSame hEmpty
      · rw [← Path.steps_eq_keptPieces hEmpty] at hPieces
        rw [walk_eq_get? hPieces, Path.steps_eq_segments_of_not_blank hPieces, Store.get?]

/-- A tree with a number under a key that an empty text follows in no map. -/
def depotStore : Store :=
  .ofRoot [("depot", .map [("size", .long 3)]), ("size", .long 5)]

/-- The dot at the end is passed over; a doubled one is an error behind a map, and below a
number the walk has ended before. -/
theorem depotStore_read :
    resolve .empty "depot.size." (some depotStore.root) = .ok (depotStore.get? "depot.size.") ∧
      depotStore.get? "depot.size." = some (.long 3) ∧
      resolve .empty "depot..size" (some depotStore.root) =
        .error (.mapping (.blankKey "depot..size")) ∧
      resolve .empty "size..x" (some depotStore.root) = .ok none := by
  obtain ⟨-, hRead⟩ := resolve_like_get? .empty depotStore "depot.size."
  obtain ⟨hRefused, -⟩ := resolve_like_get? .empty depotStore "depot..size"
  exact ⟨hRead (.inr (by decide)), rfl,
    (hRefused _).mpr ⟨rfl, by decide, ["depot"], "", ["size"], by decide, by decide, _, rfl⟩, rfl⟩

end Resolution

end TypedConfig
