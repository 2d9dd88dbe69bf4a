import TypedConfig.Proofs.Path
import TypedConfig.Proofs.Store.Comments

/-!
# Spellings of paths

A store reads a path by its non-empty segments. Dots at either end of a path and doubled dots
inside it only spell the path in another way, and so a run of calls goes on alike, answer by
answer and store by store, when its paths are spelled in other ways.

The store keeps comments under lists of keys. They can be kept under texts as well: the segments
of a path with one dot between them. What is below a path is then told by comparing texts, the
one of the path with a dot behind it against the ones of the comments. `LabelledStore` is such a
store. It stays in step with the other one along every run, as different lists of keys have
different texts and a text begins with another one and a dot exactly below it.

Main results:

* `Path.intercalate_inj` — the text of keys determines them.
* `Path.covers_intercalate_iff` — comparing texts is comparing keys.
* `Store.trace_labelled` — both stores give the same answers and stay in step.
* `Store.run_respelled` — other spellings of the paths change nothing about a run.
-/

namespace TypedConfig

/-! ## Texts of keys -/

namespace Path

/-- The path with one dot between its segments, and none anywhere else. -/
def normal (path : String) : String :=
  ".".intercalate (segments path)

/-- The keys can be the segments of a path. -/
def Plain (keys : List String) : Prop :=
  ∀ key ∈ keys, key ≠ "" ∧ '.' ∉ key.toList

theorem dot_not_mem_of_mem_splitChars {cs piece : List Char} (h : piece ∈ splitChars cs) :
    '.' ∉ piece := by
  induction cs generalizing piece with
  | nil =>
    rw [splitChars, List.mem_singleton] at h
    rw [h]
    exact List.not_mem_nil
  | cons c cs ih =>
    -- a dot separates the pieces and belongs to none
    by_cases hDot : c = '.'
    · rw [splitChars, if_pos hDot] at h
      rcases List.mem_cons.mp h with rfl | h
      · exact List.not_mem_nil
      · exact ih h
    · obtain ⟨first, rest, hTail, hCons⟩ := splitChars_cons_of_ne hDot cs
      rw [hCons] at h
      rcases List.mem_cons.mp h with rfl | h
      · rw [List.mem_cons, not_or]
        exact ⟨Ne.symm hDot, ih (hTail ▸ List.mem_cons_self ..)⟩
      · exact ih (hTail ▸ List.mem_cons_of_mem _ h)

theorem plain_segments (path : String) : Plain (segments path) := by
  intro key hKey
  obtain ⟨hPiece, hEmpty⟩ := List.mem_filter.mp hKey
  obtain ⟨chars, hChars, rfl⟩ := List.mem_map.mp hPiece
  rw [String.toList_ofList]
  exact ⟨of_decide_eq_true hEmpty, dot_not_mem_of_mem_splitChars hChars⟩

/-- Keys are found again in their text. -/
theorem segments_intercalate {keys : List String} (h : Plain keys) :
    segments (".".intercalate keys) = keys := by
  induction keys with
  | nil => rfl
  | cons key rest ih =>
    obtain ⟨⟨hEmpty, hDot⟩, hRest⟩ := List.forall_mem_cons.mp h
    -- the last key has no dot behind it
    cases rest with
    | nil => rw [String.intercalate_singleton, segments_of_not_mem hDot hEmpty]
    | cons other rest =>
      rw [String.intercalate_cons_cons, segments_append_dot, segments_of_not_mem hDot hEmpty,
        ih hRest, List.singleton_append]

/-- **The text of keys determines them.** -/
theorem intercalate_inj {keys others : List String} (hKeys : Plain keys) (hOthers : Plain others) :
    ".".intercalate keys = ".".intercalate others ↔ keys = others := by
  constructor
  · intro hSame
    rw [← segments_intercalate hKeys, hSame, segments_intercalate hOthers]
  · exact congrArg _

@[simp] theorem segments_normal (path : String) : segments (normal path) = segments path :=
  segments_intercalate (plain_segments path)

@[simp] theorem normal_normal (path : String) : normal (normal path) = normal path := by
  rw [normal, segments_normal, normal]

theorem normal_eq_iff {path other : String} :
    normal path = normal other ↔ segments path = segments other :=
  intercalate_inj (plain_segments path) (plain_segments other)

theorem normal_eq_empty_iff (path : String) : normal path = "" ↔ segments path = [] := by
  have hEmpty : Plain [] := nofun
  exact intercalate_inj (plain_segments path) hEmpty

/-- A text is the given one, or goes on behind a dot. -/
def covers (text other : String) : Bool :=
  other = text || (text ++ ".").toList.isPrefixOf other.toList

/-- **A text covers the texts below it** and no others. -/
theorem covers_intercalate_iff {keys others : List String} (hNonempty : keys ≠ [])
    (hKeys : Plain keys) (hOthers : Plain others) :
    covers (".".intercalate keys) (".".intercalate others) ↔ keys <+: others := by
  rw [covers, Bool.or_eq_true, decide_eq_true_iff, List.isPrefixOf_iff_prefix]
  constructor
  · rintro (hSame | ⟨rest, hRest⟩)
    · obtain rfl := (intercalate_inj hOthers hKeys).mp hSame
      exact List.prefix_rfl
    · -- what follows the dot are the keys that follow
      have hText : ".".intercalate others = ".".intercalate keys ++ "." ++ String.ofList rest := by
        apply String.toList_injective
        rw [String.toList_append, String.toList_ofList, hRest]
      refine ⟨segments (String.ofList rest), ?_⟩
      rw [← segments_intercalate hOthers, hText, segments_append_dot, segments_intercalate hKeys]
  · rintro ⟨rest, rfl⟩
    -- nothing follows, or a dot and the other keys
    by_cases hRest : rest = []
    · rw [hRest, List.append_nil]
      exact .inl rfl
    · rw [String.intercalate_append_of_ne_nil hNonempty hRest,
        String.toList_append (t := ".".intercalate rest)]
      exact .inr (List.prefix_append ..)

end Path

/-! ## Calls -/

namespace Store

/-- What a store is asked to do at a path. -/
inductive Action where
  | get
  | contains
  | set (value : Value)
  | remove
  | attach (lines : List String) (onKey : Bool)
  | read (onKey : Bool)

/-- An action with the path it is done at. -/
structure Call where
  path : String
  action : Action

/-- What a call is answered with. -/
inductive Answer where
  | value (found : Option Value)
  | presence (found : Bool)
  | comment (lines : Option (List String))
  | done

/-- The operations that make something a store. -/
structure Operations (σ : Type) where
  get? : σ → String → Option Value
  contains : σ → String → Bool
  set : σ → String → Value → σ
  remove : σ → String → σ
  attachComment : σ → String → List String → Bool → σ
  readComment? : σ → String → Bool → Option (List String)

namespace Operations

variable {σ : Type}

/-- The answer to a call and the store after it. -/
def call (ops : Operations σ) (s : σ) (c : Call) : Answer × σ :=
  match c.action with
  | .get => (.value (ops.get? s c.path), s)
  | .contains => (.presence (ops.contains s c.path), s)
  | .set value => (.done, ops.set s c.path value)
  | .remove => (.done, ops.remove s c.path)
  | .attach lines onKey => (.done, ops.attachComment s c.path lines onKey)
  | .read onKey => (.comment (ops.readComment? s c.path onKey), s)

/-- The answers to a run of calls, each with the store after it. -/
def trace (ops : Operations σ) (s : σ) : List Call → List (Answer × σ)
  | [] => []
  | c :: rest => ops.call s c :: ops.trace (ops.call s c).2 rest

end Operations

/-- The operations of a store. -/
def operations : Operations Store :=
  ⟨get?, contains, set, remove, attachComment, readComment?⟩

namespace Call

/-- The call with its path in normal form. -/
def normal (c : Call) : Call :=
  { c with path := Path.normal c.path }

/-- The same action at a path of the same segments. -/
structure Respells (c c' : Call) : Prop where
  action : c.action = c'.action
  segments : Path.segments c.path = Path.segments c'.path

theorem Respells.normal_eq {c c' : Call} (h : Respells c c') : c.normal = c'.normal := by
  rw [normal, normal, h.action, Path.normal_eq_iff.mpr h.segments]

end Call

/-- Where a call may be brought into normal form, other spellings do not change a run. -/
theorem Operations.trace_eq_of_respells {σ : Type} {ops : Operations σ}
    (hNormal : ∀ s c, ops.call s c.normal = ops.call s c) {calls calls' : List Call}
    (h : List.Forall₂ Call.Respells calls calls') (s : σ) :
    ops.trace s calls = ops.trace s calls' := by
  induction h generalizing s with
  | nil => rfl
  | @cons c c' _ _ hFirst _ ih =>
    -- both calls are answered like their normal form
    have hStep : ops.call s c = ops.call s c' := by
      rw [← hNormal s c, hFirst.normal_eq, hNormal s c']
    rw [trace, trace, hStep, ih]

theorem call_normal (s : Store) (c : Call) :
    operations.call s c.normal = operations.call s c := by
  obtain ⟨path, action⟩ := c
  -- whatever depends on the keys alone does not see the spelling
  have hGet : s.get? (Path.normal path) = s.get? path := by rw [get?, get?, Path.segments_normal]
  have hContains : s.contains (Path.normal path) = s.contains path := by
    rw [contains, contains, hGet]
  have hRemove : s.remove (Path.normal path) = s.remove path := by
    rw [remove, remove, Path.segments_normal]
  cases action <;>
    simp [Operations.call, operations, Call.normal, set, attachComment, readComment?, hGet,
      hContains, hRemove]

end Store

/-! ## Comments under texts -/

/-- A store that keeps its comments under the texts of their paths. -/
structure LabelledStore where
  root : Dict Value
  comments : List ((String × Bool) × List String)

namespace LabelledStore

/-- The value at a path; the empty path is the whole tree. -/
def get? (s : LabelledStore) (path : String) : Option Value :=
  Tree.get? (Path.segments path) s.root

/-- Something is at the path. -/
def contains (s : LabelledStore) (path : String) : Bool :=
  (s.get? path).isSome

/-- Removes the entry at a path with everything below it. The comments to drop are told by their
texts. -/
def remove (s : LabelledStore) (path : String) : LabelledStore :=
  let text := Path.normal path
  if text = "" then ⟨[], []⟩
  else
    match Tree.remove? (Path.segments path) s.root with
    | some root => ⟨root, s.comments.filter fun c => !Path.covers text c.1.1⟩
    | none => s

/-- Stores a value at a path; null removes what is there. -/
def set (s : LabelledStore) (path : String) (value : Value) : LabelledStore :=
  if value.isNull then s.remove path
  else { s with root := Tree.set (Path.segments path) value s.root }

/-- Attaches comment lines to the key or the value at a path, if something is there. -/
def attachComment (s : LabelledStore) (path : String) (lines : List String) (onKey : Bool) :
    LabelledStore :=
  let label := (Path.normal path, onKey)
  if s.contains path then
    { s with comments := (label, lines) :: s.comments.filter fun c => c.1 ≠ label }
  else s

/-- The comment lines attached to the key or the value at a path, if something is there. -/
def readComment? (s : LabelledStore) (path : String) (onKey : Bool) : Option (List String) :=
  if s.contains path then s.comments.lookup (Path.normal path, onKey) else none

/-- The operations of a store with texts. -/
def operations : Store.Operations LabelledStore :=
  ⟨get?, contains, set, remove, attachComment, readComment?⟩

theorem call_normal (s : LabelledStore) (c : Store.Call) :
    operations.call s c.normal = operations.call s c := by
  obtain ⟨path, action⟩ := c
  have hGet : s.get? (Path.normal path) = s.get? path := by rw [get?, get?, Path.segments_normal]
  have hContains : s.contains (Path.normal path) = s.contains path := by
    rw [contains, contains, hGet]
  have hRemove : s.remove (Path.normal path) = s.remove path := by
    rw [remove, remove, Path.segments_normal, Path.normal_normal]
  cases action <;>
    simp [Store.Operations.call, operations, Store.Call.normal, set, attachComment, readComment?,
      hGet, hContains, hRemove]

/-- All comments are kept under texts in normal form. -/
def Normal (s : LabelledStore) : Prop :=
  ∀ c ∈ s.comments, Path.normal c.1.1 = c.1.1

end LabelledStore

/-! ## In step -/

/-- A place by the text of its keys. -/
def CommentPlace.label (place : CommentPlace) : String × Bool :=
  (".".intercalate place.keys, place.onKey)

theorem CommentPlace.label_inj {a b : CommentPlace} (ha : Path.Plain a.keys)
    (hb : Path.Plain b.keys) : a.label = b.label ↔ a = b := by
  obtain ⟨keys, onKey⟩ := a
  obtain ⟨others, onKey'⟩ := b
  rw [label, label, Prod.mk.injEq, CommentPlace.mk.injEq, Path.intercalate_inj ha hb]

/-- Finding an entry by what stands for its key, and stands for no other one. -/
theorem lookup_map {κ κ' β : Type} [BEq κ] [LawfulBEq κ] [BEq κ'] [LawfulBEq κ'] {f : κ → κ'}
    {k : κ} {entries : List (κ × β)} (hKey : ∀ e ∈ entries, f k = f e.1 ↔ k = e.1) :
    (entries.map (Prod.map f id)).lookup (f k) = entries.lookup k := by
  induction entries with
  | nil => rfl
  | cons e rest ih =>
    obtain ⟨hFirst, hRest⟩ := List.forall_mem_cons.mp hKey
    -- the two comparisons agree on every entry
    have hSame : (f k == f e.1) = (k == e.1) := by
      rw [Bool.eq_iff_iff, beq_iff_eq, beq_iff_eq, hFirst]
    rw [List.map_cons, Prod.map, List.lookup_cons, List.lookup_cons, hSame, ih hRest]
    rfl

namespace Store

/-- The store with its comments under texts. -/
def labelled (s : Store) : LabelledStore :=
  ⟨s.root, s.comments.map (Prod.map CommentPlace.label id)⟩

/-- All comments are attached along paths. -/
def Placed (s : Store) : Prop :=
  ∀ entry ∈ s.comments, Path.Plain entry.1.keys

theorem Reached.placed {s : Store} (h : s.Reached) : s.Placed := by
  intro entry hMem
  obtain ⟨path, hPath⟩ := h.exists_path entry hMem
  exact hPath ▸ Path.plain_segments path

theorem Placed.normal_labelled {s : Store} (h : s.Placed) : s.labelled.Normal := by
  refine List.forall_mem_map.mpr fun entry hMem => ?_
  exact congrArg _ (Path.segments_intercalate (h entry hMem))

/-- A call attaches comments along its own path only. -/
theorem Placed.call {s : Store} (h : s.Placed) (c : Call) : (operations.call s c).2.Placed := by
  obtain ⟨path, action⟩ := c
  cases action with
  | get => exact h
  | contains => exact h
  | set value => exact fun entry hMem => h entry (mem_comments_of_set hMem)
  | remove => exact fun entry hMem => h entry (mem_comments_of_remove hMem)
  | attach lines onKey =>
    -- a new comment stands at the keys of the path
    intro entry hMem
    rcases mem_comments_of_attachComment hMem with hPlace | hMem
    · rw [hPlace]
      exact Path.plain_segments path
    · exact h entry hMem
  | read onKey => exact h

theorem remove_labelled {s : Store} (h : s.Placed) (path : String) :
    s.labelled.remove path = (s.remove path).labelled := by
  unfold LabelledStore.remove Store.remove
  dsimp only
  by_cases hRoot : Path.segments path = []
  · -- the empty list of keys is in front of every other
    rw [if_pos ((Path.normal_eq_empty_iff path).mpr hRoot), hRoot]
    simp [Tree.remove?, Comments.dropBelow, labelled]
  · rw [if_neg (mt (Path.normal_eq_empty_iff path).mp hRoot)]
    -- the texts below that of a path are those of the keys below it
    have hKept : (s.comments.map (Prod.map CommentPlace.label id)).filter
        (fun c => !Path.covers (Path.normal path) c.1.1) =
        (s.comments.dropBelow (Path.segments path)).map (Prod.map CommentPlace.label id) := by
      rw [List.filter_map, Comments.dropBelow]
      refine congrArg _ (List.filter_congr fun entry hMem => ?_)
      have hCovers := Path.covers_intercalate_iff hRoot (Path.plain_segments path) (h entry hMem)
      rw [← List.isPrefixOf_iff_prefix, ← Bool.eq_iff_iff] at hCovers
      exact congrArg not hCovers
    show (match Tree.remove? (Path.segments path) s.root with
      | some root => LabelledStore.mk root _
      | none => s.labelled) = _
    cases Tree.remove? (Path.segments path) s.root with
    | none => rfl
    | some root => exact congrArg (LabelledStore.mk root) hKept

theorem set_labelled {s : Store} (h : s.Placed) (path : String) (value : Value) :
    s.labelled.set path value = (s.set path value).labelled := by
  unfold LabelledStore.set Store.set
  split
  · exact remove_labelled h path
  · rfl

theorem attachComment_labelled {s : Store} (h : s.Placed) (path : String) (lines : List String)
    (onKey : Bool) :
    s.labelled.attachComment path lines onKey = (s.attachComment path lines onKey).labelled := by
  -- both stores hold the same tree
  have hContains : s.labelled.contains path = s.contains path := rfl
  unfold LabelledStore.attachComment Store.attachComment
  dsimp only
  rw [hContains]
  split
  · refine congrArg (fun others => LabelledStore.mk s.root (_ :: others)) ?_
    show (s.comments.map (Prod.map CommentPlace.label id)).filter _ =
      List.map _ (s.comments.filter _)
    rw [List.filter_map]
    refine congrArg _ (List.filter_congr fun entry hMem => ?_)
    -- the labels of two places are the same only if the places are
    have hSame := CommentPlace.label_inj (b := ⟨Path.segments path, onKey⟩) (h entry hMem)
      (Path.plain_segments path)
    exact decide_eq_decide.mpr (not_congr hSame)
  · rfl

theorem readComment?_labelled {s : Store} (h : s.Placed) (path : String) (onKey : Bool) :
    s.labelled.readComment? path onKey = s.readComment? path onKey := by
  have hContains : s.labelled.contains path = s.contains path := rfl
  have hLookup : s.labelled.comments.lookup (CommentPlace.label ⟨Path.segments path, onKey⟩) =
      s.comments.lookup ⟨Path.segments path, onKey⟩ :=
    lookup_map fun entry hMem => CommentPlace.label_inj (Path.plain_segments path) (h entry hMem)
  rw [LabelledStore.readComment?, readComment?, hContains]
  exact congrArg (fun lines => if s.contains path then lines else none) hLookup

/-- A call to one of the stores is answered by the other one alike, and leaves them in step. -/
theorem call_labelled {s : Store} (h : s.Placed) (c : Call) :
    LabelledStore.operations.call s.labelled c = (operations.call s c).map id labelled := by
  obtain ⟨path, action⟩ := c
  cases action with
  | get => rfl
  | contains => rfl
  | set value => exact congrArg (Answer.done, ·) (set_labelled h path value)
  | remove => exact congrArg (Answer.done, ·) (remove_labelled h path)
  | attach lines onKey =>
    exact congrArg (Answer.done, ·) (attachComment_labelled h path lines onKey)
  | read onKey => exact congrArg (Answer.comment ·, s.labelled) (readComment?_labelled h path onKey)

/-- **Both stores give the same answers and stay in step** along a run. -/
theorem trace_labelled {s : Store} (h : s.Placed) (calls : List Call) :
    LabelledStore.operations.trace s.labelled calls =
      (operations.trace s calls).map (Prod.map id labelled) := by
  induction calls generalizing s with
  | nil => rfl
  | cons c rest ih =>
    rw [Operations.trace, Operations.trace, List.map_cons, call_labelled h, ← ih (h.call c)]
    rfl

theorem placed_of_mem_trace {s : Store} (h : s.Placed) {calls : List Call} :
    ∀ step ∈ operations.trace s calls, step.2.Placed := by
  induction calls generalizing s with
  | nil => nofun
  | cons c rest ih => exact List.forall_mem_cons.mpr ⟨h.call c, ih (h.call c)⟩

/-- **Other spellings of the paths change nothing about a run.** Every call is answered alike and
leaves the same store, be the comments kept under keys or under texts. Both stores stay in step,
and all texts in normal form. -/
theorem run_respelled {calls calls' : List Call} (h : List.Forall₂ Call.Respells calls calls') :
    (∀ s : Store, operations.trace s calls = operations.trace s calls') ∧
    (∀ s : LabelledStore,
      LabelledStore.operations.trace s calls = LabelledStore.operations.trace s calls') ∧
    ∀ s : Store, s.Placed →
      LabelledStore.operations.trace s.labelled calls' =
        (operations.trace s calls).map (Prod.map id labelled) ∧
      ∀ step ∈ LabelledStore.operations.trace s.labelled calls', step.2.Normal := by
  refine ⟨Operations.trace_eq_of_respells call_normal h,
    Operations.trace_eq_of_respells LabelledStore.call_normal h, fun s hPlaced => ?_⟩
  -- the store with the texts follows the other one, which does not see the spelling
  have hInStep : LabelledStore.operations.trace s.labelled calls' =
      (operations.trace s calls).map (Prod.map id labelled) := by
    rw [trace_labelled hPlaced, Operations.trace_eq_of_respells call_normal h]
  refine ⟨hInStep, ?_⟩
  rw [hInStep]
  -- on the way there are only stores with plain keys, and their labels are normal
  exact List.forall_mem_map.mpr fun step hStep =>
    (placed_of_mem_trace hPlaced step hStep).normal_labelled

/-- A limit with a comment on it, and what becomes of both: all paths have dots too many. -/
def dottedCalls : List Call :=
  [⟨".limits..size.", .set (.long 1)⟩, ⟨"limits.size.", .attach ["in bytes"] false⟩,
    ⟨"limits..size", .read false⟩, ⟨"..limits", .set .null⟩, ⟨"limits.size.", .set (.long 2)⟩,
    ⟨".limits.size", .read false⟩]

def plainCalls : List Call :=
  [⟨"limits.size", .set (.long 1)⟩, ⟨"limits.size", .attach ["in bytes"] false⟩,
    ⟨"limits.size", .read false⟩, ⟨"limits", .set .null⟩, ⟨"limits.size", .set (.long 2)⟩,
    ⟨"limits.size", .read false⟩]

theorem dottedCalls_respelled : List.Forall₂ Call.Respells dottedCalls plainCalls :=
  .cons ⟨rfl, rfl⟩ (.cons ⟨rfl, rfl⟩ (.cons ⟨rfl, rfl⟩ (.cons ⟨rfl, rfl⟩ (.cons ⟨rfl, rfl⟩
    (.cons ⟨rfl, rfl⟩ .nil)))))

/-- The comment is read, and goes with the limit, however their paths are spelled. -/
theorem dottedCalls_run :
    List.Forall₂ Call.Respells dottedCalls plainCalls ∧ empty.Placed ∧
      operations.trace empty dottedCalls = operations.trace empty plainCalls ∧
      LabelledStore.operations.trace empty.labelled plainCalls =
        (operations.trace empty dottedCalls).map (Prod.map id labelled) ∧
      (operations.trace empty plainCalls).map Prod.fst =
        [.done, .done, .comment (some ["in bytes"]), .done, .done, .comment none] := by
  have hPlaced : empty.Placed := nofun
  obtain ⟨hSame, -, hInStep⟩ := run_respelled dottedCalls_respelled
  exact ⟨dottedCalls_respelled, hPlaced, hSame empty, (hInStep empty hPlaced).1, rfl⟩

end Store

end TypedConfig
