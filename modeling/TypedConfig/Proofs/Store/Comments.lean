import TypedConfig.Proofs.Store.Writing
import TypedConfig.Store.Loading

/-!
# What becomes of comments

Comments stand beside the tree, each under the keys of its entry. Removing an
entry drops the comments at and below it, and from then on nothing but attaching
one anew can bring a comment to these places: setting values never touches
comments, and removals only drop more of them.

That holds of removals that reach the map their entry stands in. Where something
on the way is no map the removal is blocked and drops nothing, and a comment that
had been left behind when its entry was overwritten is read again as soon as the
path exists once more.

Main results:

* `Tree.remove?_isSome_iff` — when a removal is blocked.
* `Store.Silent.run` — a place without a comment stays without one along every
  run of edits that attaches none to it.
* `Store.stays_removed_iff` — the removals after which no comment comes back.
-/

namespace TypedConfig

/-! ## Runs of edits -/

/-- A change made to a store. -/
inductive Edit where
  | set (path : String) (value : Value)
  | remove (path : String)
  | attach (path : String) (lines : List String) (onKey : Bool)

namespace Edit

/-- The store after an edit. -/
def apply (s : Store) : Edit → Store
  | set path value => s.set path value
  | remove path => s.remove path
  | attach path lines onKey => s.attachComment path lines onKey

/-- The edit attaches a comment to the place. -/
def AttachesTo (place : CommentPlace) : Edit → Prop
  | attach path _ onKey => ⟨Path.segments path, onKey⟩ = place
  | _ => False

/-- The edit removes what is at the path, in one of two ways. -/
def Removes (path : String) (edit : Edit) : Prop :=
  edit = .remove path ∨ edit = .set path .null

theorem Removes.apply_eq {path : String} {edit : Edit} (h : edit.Removes path) (s : Store) :
    edit.apply s = s.remove path := by
  rcases h with rfl | rfl
  · rfl
  · rfl

end Edit

namespace Store

/-- The store after a run of edits. -/
def run (s : Store) (edits : List Edit) : Store :=
  edits.foldl Edit.apply s

theorem run_cons (s : Store) (edit : Edit) (edits : List Edit) :
    s.run (edit :: edits) = (edit.apply s).run edits :=
  rfl

/-- The store comes from a loaded tree by a run of edits. -/
def Reached (s : Store) : Prop :=
  ∃ base document loaded edits, Store.load base document = .ok loaded ∧ s = loaded.run edits

end Store

/-! ## Blocked removals -/

/-- A removal goes through exactly where its entry would stand in a map. -/
theorem Tree.remove?_isSome_iff {keys : List String} {tree : Dict Value} :
    (Tree.remove? keys tree).isSome ↔
      ∃ entries, Tree.get? keys.dropLast tree = some (.map entries) := by
  induction keys generalizing tree with
  | nil => exact iff_of_true rfl ⟨tree, rfl⟩
  | cons key keys ih =>
    cases keys with
    | nil => exact iff_of_true rfl ⟨tree, rfl⟩
    | cons other keys =>
      rw [Tree.remove?_cons_cons, List.dropLast_cons_cons, Tree.get?_eq_reach?,
        Value.reach?_cons_map]
      cases hValue : tree.get? key with
      | none => exact iff_of_false nofun nofun
      | some v =>
        rw [Option.bind_some]
        cases v with
        | map next =>
          dsimp only
          rw [Option.isSome_map, ← Tree.get?_eq_reach?]
          exact ih
        | _ =>
          -- no map is reached from something that is none
          refine iff_of_false nofun ?_
          rintro ⟨entries, hReach⟩
          cases keys <;> cases hReach

namespace Store

/-! ## Places without a comment -/

/-- No comment is attached to the place. -/
def Silent (s : Store) (place : CommentPlace) : Prop :=
  ∀ entry ∈ s.comments, entry.1 ≠ place

theorem Silent.readComment?_eq_none {s : Store} {path : String} {onKey : Bool}
    (h : s.Silent ⟨Path.segments path, onKey⟩) : s.readComment? path onKey = none := by
  unfold Store.readComment?
  split
  · rw [Comments.lines?, List.lookup_eq_none_iff]
    intro entry hMem
    exact bne_iff_ne.mpr (Ne.symm (h entry hMem))
  · rfl

/-- Removing adds no comments. -/
theorem mem_comments_of_remove {s : Store} {path : String} {entry : CommentPlace × List String}
    (h : entry ∈ (s.remove path).comments) : entry ∈ s.comments := by
  unfold Store.remove at h
  dsimp only at h
  split at h
  · exact (List.mem_filter.mp h).1
  · exact h

/-- The edits that set a value or remove one add no comments either. -/
theorem mem_comments_of_set {s : Store} {path : String} {value : Value}
    {entry : CommentPlace × List String} (h : entry ∈ (s.set path value).comments) :
    entry ∈ s.comments := by
  unfold Store.set at h
  split at h
  · exact mem_comments_of_remove h
  · exact h

/-- A comment that is there after attaching one is that one or was there before. -/
theorem mem_comments_of_attachComment {s : Store} {path : String} {lines : List String}
    {onKey : Bool} {entry : CommentPlace × List String}
    (h : entry ∈ (s.attachComment path lines onKey).comments) :
    entry.1 = ⟨Path.segments path, onKey⟩ ∨ entry ∈ s.comments := by
  unfold Store.attachComment at h
  split at h
  · -- attached, it is the new one or one of another place
    rcases List.mem_cons.mp h with rfl | h
    · exact Or.inl rfl
    · exact Or.inr (List.mem_filter.mp h).1
  · -- nothing is attached where the path leads nowhere
    exact Or.inr h

/-- What an edit leaves of comments, and what it may add. -/
theorem mem_comments_of_apply {s : Store} {edit : Edit} {entry : CommentPlace × List String}
    (h : entry ∈ (edit.apply s).comments) : edit.AttachesTo entry.1 ∨ entry ∈ s.comments := by
  cases edit with
  | set path value => exact Or.inr (mem_comments_of_set h)
  | remove path => exact Or.inr (mem_comments_of_remove h)
  | attach path lines onKey => exact (mem_comments_of_attachComment h).imp_left Eq.symm

theorem Silent.apply {s : Store} {place : CommentPlace} (h : s.Silent place) {edit : Edit}
    (hEdit : ¬edit.AttachesTo place) : (edit.apply s).Silent place := by
  rintro entry hMem rfl
  rcases mem_comments_of_apply hMem with hAttaches | hMem
  · exact hEdit hAttaches
  · exact h entry hMem rfl

/-- A place without a comment stays without one until one is attached to it. -/
theorem Silent.run {s : Store} {place : CommentPlace} (h : s.Silent place) {edits : List Edit}
    (hEdits : ∀ edit ∈ edits, ¬edit.AttachesTo place) : (s.run edits).Silent place := by
  induction edits generalizing s with
  | nil => exact h
  | cons edit edits ih =>
    rw [run_cons]
    exact ih (h.apply (hEdits edit (List.mem_cons_self ..)))
      fun other hMem => hEdits other (List.mem_cons_of_mem _ hMem)

/-! ## Comments of reached stores -/

/-- Comments are attached along paths only, so their keys are those of a path. -/
theorem exists_path_of_run {s : Store}
    (h : ∀ entry ∈ s.comments, ∃ path, Path.segments path = entry.1.keys) (edits : List Edit) :
    ∀ entry ∈ (s.run edits).comments, ∃ path, Path.segments path = entry.1.keys := by
  induction edits generalizing s with
  | nil => exact h
  | cons edit edits ih =>
    refine ih fun entry hMem => ?_
    rcases mem_comments_of_apply hMem with hAttaches | hMem
    -- of the edits only attaching makes a comment
    · cases edit with
      | attach path lines onKey => exact ⟨path, congrArg CommentPlace.keys hAttaches⟩
      | _ => exact hAttaches.elim
    · exact h entry hMem

/-- Loading forgets all comments. -/
theorem comments_load {s loaded : Store} {document : Document} (h : s.load document = .ok loaded) :
    loaded.comments = [] := by
  unfold Store.load at h
  -- the document is refused, or its comments start from none
  split at h
  · cases h
  · cases h
    rfl
  · cases h
    rfl
  · cases h

theorem Reached.exists_path {s : Store} (h : s.Reached) :
    ∀ entry ∈ s.comments, ∃ path, Path.segments path = entry.1.keys := by
  obtain ⟨base, document, loaded, edits, hLoad, rfl⟩ := h
  refine exists_path_of_run (fun entry hMem => ?_) edits
  rw [comments_load hLoad] at hMem
  cases hMem

/-! ## Removed comments -/

/-- A removal that goes through, or finds no comments at all, leaves none behind. -/
theorem silent_remove {s : Store} {path : String}
    (h : (Tree.remove? (Path.segments path) s.root).isSome ∨
      ∀ entry ∈ s.comments, ¬Path.segments path <+: entry.1.keys)
    {place : CommentPlace} (hPlace : Path.segments path <+: place.keys) :
    (s.remove path).Silent place := by
  rintro entry hMem rfl
  rcases h with hSome | hNone
  · -- the removal has dropped them
    obtain ⟨root, hRoot⟩ := Option.isSome_iff_exists.mp hSome
    unfold Store.remove at hMem
    dsimp only at hMem
    rw [hRoot] at hMem
    have hKept := (List.mem_filter.mp hMem).2
    rw [List.isPrefixOf_iff_prefix.mpr hPlace] at hKept
    cases hKept
  · -- there were none, and removing makes none
    exact hNone entry (mem_comments_of_remove hMem) hPlace

/-- A comment behind a blocked removal is read again once its path exists. -/
theorem readComment?_set_of_blocked {s : Store} {path other : String} {onKey : Bool}
    {lines : List String}
    (hBlocked : Tree.remove? (Path.segments path) s.root = none)
    (hBelow : Path.segments path <+: Path.segments other)
    (hComment : (⟨Path.segments other, onKey⟩, lines) ∈ s.comments) :
    ((s.remove path).set other (.bool true)).readComment? other onKey ≠ none := by
  -- a blocked removal leaves the comments as well
  have hSame : s.remove path = s := by
    unfold Store.remove
    dsimp only
    rw [hBlocked]
  -- only a path with segments can be blocked
  have hOther : Path.segments other ≠ [] := by
    intro hNil
    rw [hNil, List.prefix_nil] at hBelow
    rw [hBelow] at hBlocked
    cases hBlocked
  -- the set makes the path exist again
  have hContains : (s.set other (.bool true)).contains other = true := by
    have hGet : (s.set other (.bool true)).get? other = (Value.bool true).reach? [] :=
      s.get?_set_of_below hOther (List.append_nil _).symm rfl
    rw [Store.contains, hGet]
    rfl
  rw [hSame, Store.readComment?, if_pos hContains, Comments.lines?, ne_eq,
    List.lookup_eq_none_iff]
  intro hNone
  exact absurd rfl (bne_iff_ne.mp (hNone _ hComment))

/-- **Which removed comments stay away.** After a removal, a comment at or below the
path is read again only if it is attached again, whatever else happens to the store,
exactly when the removed entry would stand in a map or there was no comment at or
below the path. -/
theorem stays_removed_iff {s : Store} (hReached : s.Reached) {path : String} {removal : Edit}
    (hRemoval : removal.Removes path) :
    (∀ edits other onKey, Path.segments path <+: Path.segments other →
      (∀ edit ∈ edits, ¬edit.AttachesTo ⟨Path.segments other, onKey⟩) →
        (s.run (removal :: edits)).readComment? other onKey = none) ↔
      (∃ entries, Tree.get? (Path.segments path).dropLast s.root = some (.map entries)) ∨
        ∀ entry ∈ s.comments, ¬Path.segments path <+: entry.1.keys := by
  rw [← Tree.remove?_isSome_iff]
  constructor
  · intro hStays
    by_contra hNeither
    obtain ⟨hBlocked, hLeft⟩ := not_or.mp hNeither
    push Not at hLeft
    obtain ⟨⟨⟨keys, onKey⟩, lines⟩, hMem, hBelow⟩ := hLeft
    obtain ⟨other, rfl⟩ := hReached.exists_path _ hMem
    -- setting anything at the path of the comment brings it back
    refine readComment?_set_of_blocked (Option.not_isSome_iff_eq_none.mp hBlocked) hBelow hMem ?_
    have hRead := hStays [.set other (.bool true)] other onKey hBelow fun edit hEdit => by
      rw [List.mem_singleton.mp hEdit]
      exact not_false
    rwa [run_cons, hRemoval.apply_eq] at hRead
  · -- none is there after the removal, and the edits attach none
    intro hGone edits other onKey hBelow hEdits
    rw [run_cons, hRemoval.apply_eq]
    exact ((silent_remove hGone hBelow).run hEdits).readComment?_eq_none

/-- A document with one number inside a map. -/
def limitDocument : Document :=
  .object [("limits", .object [("size", .integer 1)])]

def limitStore : Store :=
  .ofRoot [("limits", .map [("size", .long 1)])]

def commentedStore : Store :=
  limitStore.run [.attach "limits.size" ["in bytes"] true]

theorem commentedStore_reached : commentedStore.Reached :=
  ⟨.empty, limitDocument, limitStore, _, rfl, rfl⟩

/-- The comment on a number goes with the map around it, for good. -/
theorem commentedStore_stays_removed :
    commentedStore.Reached ∧ (Edit.set "limits" .null).Removes "limits" ∧
      commentedStore.readComment? "limits.size" true = some ["in bytes"] ∧
      ∀ edits other onKey, Path.segments "limits" <+: Path.segments other →
        (∀ edit ∈ edits, ¬edit.AttachesTo ⟨Path.segments other, onKey⟩) →
          (commentedStore.run (.set "limits" .null :: edits)).readComment? other onKey = none :=
  ⟨commentedStore_reached, .inr rfl, rfl,
    (stays_removed_iff commentedStore_reached (.inr rfl)).mpr (.inl ⟨_, rfl⟩)⟩

/-- A comment comes back after its path was removed: the removal is blocked by the
number that has taken the place of the map around it. -/
theorem removed_comment_comes_back :
    Store.empty.load limitDocument = .ok limitStore ∧
      (limitStore.run [.attach "limits.size" ["in bytes"] true, .set "limits" (.long 5),
        .remove "limits.size", .set "limits.size" (.long 2)]).readComment? "limits.size" true =
        some ["in bytes"] :=
  ⟨rfl, rfl⟩

end Store

end TypedConfig
