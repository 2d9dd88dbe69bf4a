import TypedConfig.Deferred
import Mathlib.Data.List.Forall2

/-!
# Collecting outcomes

`collect` succeeds exactly when every item does, with the outcomes in order, and
fails with the error of one of the items.

Main results:

* `collect_eq_ok_iff` / `collect_eq_ok_iff_forall₂` — the outcomes of a collection that succeeds.
* `collect_eq_error_iff` — the first item that fails, in one that does.
* `collect_append` — two collections one after the other.
* `collect_error_iff_filter` — items that cannot fail have no part in that.
* `eq_map_of_collect` — what is collected where every outcome is that of a function.
* `collect_map` / `collect_of_map` — collecting after a change, and a change after
  collecting.
-/

namespace TypedConfig

variable {α β : Type _} {f : α → Outcome β}

/-- A sequence succeeds exactly when its first part does and the rest succeeds from there. -/
theorem bind_eq_ok_iff {o : Outcome α} {g : α → Outcome β} {b : β} :
    o >>= g = .ok b ↔ ∃ a, o = .ok a ∧ g a = .ok b := by
  cases o <;> simp [bind, Except.bind]

theorem map_eq_ok_iff {o : Outcome α} {g : α → β} {b : β} :
    o.map g = .ok b ↔ ∃ a, o = .ok a ∧ g a = b := by
  cases o <;> simp [Except.map]

/-- A sequence fails in its first part, or in the rest once that part has succeeded. -/
theorem bind_eq_error_iff {o : Outcome α} {g : α → Outcome β} {e : Error} :
    o >>= g = .error e ↔ o = .error e ∨ ∃ a, o = .ok a ∧ g a = .error e := by
  cases o <;> simp [bind, Except.bind]

theorem collect_cons_of_ok {item : α} {result : β} {rest : List α} {results : List β}
    (hItem : f item = .ok result) (hRest : collect f rest = .ok results) :
    collect f (item :: rest) = .ok (result :: results) := by
  rw [collect, hItem]
  dsimp only
  rw [hRest]

theorem collect_cons (item : α) (rest : List α) :
    collect f (item :: rest) =
      f item >>= fun result => collect f rest >>= fun results => .ok (result :: results) := by
  rw [collect]
  cases f item with
  | error e => rfl
  | ok result => cases collect f rest <;> rfl

theorem collect_singleton (item : α) :
    collect f [item] = (f item).map fun result => [result] := by
  rw [collect]
  cases f item <;> rfl

/-- A collection succeeds exactly when every item does, with their outcomes. -/
theorem collect_eq_ok_iff {items : List α} {results : List β} :
    collect f items = .ok results ↔ items.map f = results.map .ok := by
  induction items generalizing results with
  | nil =>
    cases results with
    | nil => simp [collect]
    | cons => simp [collect]
  | cons item rest ih =>
    constructor
    · intro h
      -- a collection that succeeds has got past the first item and past the rest
      rw [collect] at h
      split at h
      · cases h
      · next result hItem =>
        split at h
        · cases h
        · next others hRest =>
          cases h
          rw [List.map_cons, List.map_cons, hItem, ih.mp hRest]
    · intro h
      cases results with
      | nil => cases h
      | cons result results =>
        obtain ⟨hItem, hRest⟩ := List.cons.inj h
        exact collect_cons_of_ok hItem (ih.mpr hRest)

/-- A collection succeeds with what its items succeed with, one by one. -/
theorem collect_eq_ok_iff_forall₂ {items : List α} {results : List β} :
    collect f items = .ok results ↔
      List.Forall₂ (fun item result => f item = .ok result) items results := by
  rw [collect_eq_ok_iff, ← List.forall₂_eq_eq_eq, List.forall₂_map_left_iff,
    List.forall₂_map_right_iff]

theorem length_of_collect {items : List α} {results : List β}
    (h : collect f items = .ok results) : results.length = items.length := by
  have hLength := congrArg List.length (collect_eq_ok_iff.mp h)
  rw [List.length_map, List.length_map] at hLength
  exact hLength.symm

/-- Every outcome is that of one of the items. -/
theorem exists_of_mem_collect {items : List α} {results : List β}
    (h : collect f items = .ok results) {result : β} (hResult : result ∈ results) :
    ∃ item ∈ items, f item = .ok result := by
  have hMem : (.ok result : Outcome β) ∈ items.map f := by
    rw [collect_eq_ok_iff.mp h]
    exact List.mem_map_of_mem hResult
  exact List.mem_map.mp hMem

/-- Where every outcome is what a function gives, so are all of them. -/
theorem eq_map_of_collect {g : α → β}
    (hOutcome : ∀ item result, f item = .ok result → result = g item) {items : List α}
    {results : List β} (h : collect f items = .ok results) : results = items.map g := by
  induction items generalizing results with
  | nil => exact (Except.ok.inj h).symm
  | cons item rest ih =>
    -- the first outcome is that of the function, and the others are by induction
    rw [collect] at h
    split at h
    · cases h
    · next result hItem =>
      split at h
      · cases h
      · next others hRest =>
        cases h
        rw [List.map_cons, ← hOutcome item result hItem, ← ih hRest]

/-- The item that stands out is the first one, or it is among the others. -/
theorem exists_split_cons_iff {P Q : α → Prop} {first : α} {rest : List α} :
    (∃ before item after, first :: rest = before ++ item :: after ∧ (∀ other ∈ before, P other) ∧
        Q item) ↔
      Q first ∨ P first ∧ ∃ before item after, rest = before ++ item :: after ∧
        (∀ other ∈ before, P other) ∧ Q item := by
  constructor
  · rintro ⟨before, item, after, hItems, hBefore, hItem⟩
    -- either nothing stands before the item, or the first one of those is the first of all
    cases before with
    | nil =>
      obtain ⟨rfl, -⟩ := List.cons.inj hItems
      exact .inl hItem
    | cons other before =>
      obtain ⟨rfl, rfl⟩ := List.cons.inj hItems
      obtain ⟨hFirst, hOthers⟩ := List.forall_mem_cons.mp hBefore
      exact .inr ⟨hFirst, before, item, after, rfl, hOthers, hItem⟩
  · rintro (hFirst | ⟨hFirst, before, item, after, rfl, hBefore, hItem⟩)
    · exact ⟨[], first, rest, rfl, fun _ h => absurd h List.not_mem_nil, hFirst⟩
    · exact ⟨first :: before, item, after, rfl, List.forall_mem_cons.mpr ⟨hFirst, hBefore⟩, hItem⟩

/-- A collection fails at the first item that does, with its error. -/
theorem collect_eq_error_iff {items : List α} {e : Error} :
    collect f items = .error e ↔ ∃ before item after, items = before ++ item :: after ∧
      (∀ other ∈ before, ∃ result, f other = .ok result) ∧ f item = .error e := by
  induction items with
  | nil =>
    refine iff_of_false nofun ?_
    rintro ⟨before, item, after, hItems, -⟩
    exact List.append_ne_nil_of_right_ne_nil before (List.cons_ne_nil item after) hItems.symm
  | cons first rest ih =>
    -- either the first item fails or it succeeds and one of the others does
    rw [exists_split_cons_iff, ← ih, collect_cons, bind_eq_error_iff]
    -- adding the first outcome to those of the rest cannot fail by itself
    simp only [bind_eq_error_iff, reduceCtorEq, and_false, exists_false, or_false,
      exists_and_right]

/-- A collection that fails does so with the error of one of its items. -/
theorem exists_of_collect_error {items : List α} {e : Error} (h : collect f items = .error e) :
    ∃ item ∈ items, f item = .error e := by
  obtain ⟨before, item, after, rfl, -, hItem⟩ := collect_eq_error_iff.mp h
  exact ⟨item, List.mem_append_right _ (List.mem_cons_self ..), hItem⟩

/-- Of two collections one after the other, the second is only made if the first succeeds. -/
theorem collect_append (items others : List α) :
    collect f (items ++ others) = do
      let first ← collect f items
      let second ← collect f others
      return first ++ second := by
  induction items with
  | nil =>
    show collect f others = collect f others >>= fun second => .ok second
    cases collect f others <;> rfl
  | cons item rest ih =>
    rw [List.cons_append, collect_cons, collect_cons, ih]
    -- an error in the first part hides the second one, wherever in the first part it is
    cases f item with
    | error e => rfl
    | ok result =>
      cases collect f rest with
      | error e => rfl
      | ok results => cases collect f others <;> rfl

/-- Items that cannot fail do not decide which error a collection fails with. -/
theorem collect_error_iff_filter (p : α → Prop) [DecidablePred p]
    (hOthers : ∀ item, ¬p item → ∃ result, f item = .ok result) {items : List α} {e : Error} :
    collect f items = .error e ↔ collect f (items.filter fun item => p item) = .error e := by
  induction items with
  | nil => exact Iff.rfl
  | cons item rest ih =>
    -- adding an outcome to the others changes no error
    have hRest : ∀ {results : Outcome (List β)} {result : β},
        (results >>= fun results => .ok (result :: results)) = .error e ↔ results = .error e := by
      intro results result
      cases results with
      | error e' => exact Iff.rfl
      | ok results => exact iff_of_false nofun nofun
    by_cases hItem : p item
    · -- the item stays, and both collections begin with it
      have hKept : (item :: rest).filter (fun item => p item) =
          item :: rest.filter fun item => p item := List.filter_cons_of_pos (decide_eq_true hItem)
      rw [hKept, collect_cons, collect_cons]
      cases f item with
      | error e' => exact Iff.rfl
      | ok result => exact hRest.trans (ih.trans hRest.symm)
    · -- the item is left out, and it succeeds where it is still there
      obtain ⟨result, hResult⟩ := hOthers item hItem
      have hDropped : (item :: rest).filter (fun item => p item) =
          rest.filter fun item => p item := List.filter_cons_of_neg (by rwa [decide_eq_true_iff])
      rw [hDropped, ← ih, collect_cons, hResult]
      exact hRest

theorem collect_congr {g : α → Outcome β} {items : List α} (h : ∀ item ∈ items, f item = g item) :
    collect f items = collect g items := by
  induction items with
  | nil => rfl
  | cons item rest ih =>
    rw [collect, collect, h item (List.mem_cons_self ..),
      ih fun other hMem => h other (List.mem_cons_of_mem _ hMem)]

variable {γ : Type _}

theorem collect_map (g : γ → α) (items : List γ) :
    collect f (items.map g) = collect (fun item => f (g item)) items := by
  induction items with
  | nil => rfl
  | cons item rest ih => rw [List.map_cons, collect, collect, ih]

/-- Changing every outcome is changing all that were collected. -/
theorem collect_of_map (g : β → γ) (items : List α) :
    collect (fun item => (f item).map g) items = (collect f items).map (List.map g) := by
  induction items with
  | nil => rfl
  | cons item rest ih =>
    rw [collect, collect, ih]
    cases f item with
    | error e => rfl
    | ok result => cases collect f rest <;> rfl

/-- Items that all succeed are collected. -/
theorem exists_collect {items : List α} (h : ∀ item ∈ items, ∃ result, f item = .ok result) :
    ∃ results, collect f items = .ok results := by
  cases hCollect : collect f items with
  | ok results => exact ⟨results, rfl⟩
  | error e =>
    -- the item that the error comes from would have failed
    obtain ⟨item, hMem, hError⟩ := exists_of_collect_error hCollect
    obtain ⟨result, hOk⟩ := h item hMem
    rw [hOk] at hError
    cases hError

end TypedConfig
