import TypedConfig.Value
import Mathlib.Data.List.Induction

/-!
# Keeping first occurrences

Sets keep the first of every group of elements that a relation calls equal. The
relations in use are not reflexive — a NaN differs from itself — so what can be
said about the result is said about positions and not about equality alone.

Main results:

* `keepFirst_sublist` — what is kept stands in the order it came in.
* `keepFirst_map` — a change of the elements that their equality does not notice.
* `keepFirst_keepFirst` — of elements that are all different nothing is dropped.
* `keepsFirst_keepFirst` — what is kept, position by position.
-/

namespace TypedConfig

variable {α : Type _} {same : α → α → Bool}

/-- One step of `keepFirst`: an element that equals a kept one is dropped. -/
def keepNext (same : α → α → Bool) (kept : List α) (item : α) : List α :=
  if kept.any (same · item) then kept else kept ++ [item]

theorem keepFirst_eq_foldl (items : List α) :
    keepFirst same items = items.foldl (keepNext same) [] := rfl

theorem keepNext_sublist (kept : List α) (item : α) :
    (keepNext same kept item).Sublist (kept ++ [item]) := by
  unfold keepNext
  split
  · exact List.sublist_append_left kept [item]
  · exact List.Sublist.refl _

/-- The loop that has already kept some elements adds a part of the others
behind them. -/
theorem foldl_keepNext_sublist (items kept : List α) :
    (items.foldl (keepNext same) kept).Sublist (kept ++ items) := by
  induction items generalizing kept with
  | nil => simp
  | cons item rest ih =>
    rw [List.foldl_cons]
    -- the item is now either among the kept ones or gone
    have hStep := (@keepNext_sublist α same kept item).append_right rest
    rw [List.append_assoc, List.singleton_append] at hStep
    exact (ih _).trans hStep

/-- A change that equality does not see through leaves the same elements. -/
theorem keepFirst_map {β : Type _} {same' : β → β → Bool} {f : α → β}
    (hSame : ∀ a b, same' (f a) (f b) = same a b) (items : List α) :
    keepFirst same' (items.map f) = (keepFirst same items).map f := by
  have hLoop : ∀ kept : List α, (items.map f).foldl (keepNext same') (kept.map f) =
      (items.foldl (keepNext same) kept).map f := by
    induction items with
    | nil => exact fun _ => rfl
    | cons item rest ih =>
      intro kept
      -- one step keeps the changed element just when it keeps the element itself
      have hStep : keepNext same' (kept.map f) (f item) = (keepNext same kept item).map f := by
        unfold keepNext
        simp only [List.any_map, Function.comp_def, hSame]
        split
        · rfl
        · rw [List.map_append, List.map_singleton]
      -- the elements kept so far change along, so the induction is over all of them at once
      rw [List.map_cons, List.foldl_cons, List.foldl_cons, hStep]
      exact ih _
  rw [keepFirst_eq_foldl, keepFirst_eq_foldl]
  exact hLoop []

/-- What is kept stands in the order it came in. -/
theorem keepFirst_sublist (items : List α) : (keepFirst same items).Sublist items := by
  rw [keepFirst_eq_foldl]
  exact foldl_keepNext_sublist items []

/-! ## One more element -/

theorem keepFirst_append_singleton (items : List α) (last : α) :
    keepFirst same (items ++ [last]) = keepNext same (keepFirst same items) last := by
  rw [keepFirst_eq_foldl, List.foldl_append]
  rfl

/-- What is kept already stays. -/
theorem subset_keepNext {kept : List α} {item k : α} (h : k ∈ kept) :
    k ∈ keepNext same kept item := by
  unfold keepNext
  split
  · exact h
  · exact List.mem_append_left _ h

theorem mem_of_mem_keepFirst {items : List α} {item : α} (h : item ∈ keepFirst same items) :
    item ∈ items :=
  (keepFirst_sublist items).subset h

/-- No two elements are equal, in the order they stand in. -/
def Distinct (same : α → α → Bool) (items : List α) : Prop :=
  items.Pairwise fun a b => same a b = false

theorem distinct_keepNext {kept : List α} (h : Distinct same kept) (item : α) :
    Distinct same (keepNext same kept item) := by
  unfold keepNext
  split
  · exact h
  · next hNone =>
    -- nothing that was kept equals the new element, which comes last
    rw [Bool.not_eq_true, List.any_eq_false] at hNone
    refine List.pairwise_append.mpr ⟨h, List.pairwise_singleton .., fun k hk => ?_⟩
    exact List.forall_mem_singleton.mpr (Bool.eq_false_iff.mpr (hNone k hk))

/-- **No two of the kept elements are equal.** -/
theorem distinct_keepFirst (items : List α) : Distinct same (keepFirst same items) := by
  induction items using List.reverseRecOn with
  | nil => exact List.Pairwise.nil
  | append_singleton front last ih =>
    rw [keepFirst_append_singleton]
    exact distinct_keepNext ih last

/-- Of elements that are all different every one is kept. -/
theorem keepFirst_of_distinct {items : List α} (h : Distinct same items) :
    keepFirst same items = items := by
  induction items using List.reverseRecOn with
  | nil => rfl
  | append_singleton front last ih =>
    obtain ⟨hFront, -, hLast⟩ := List.pairwise_append.mp h
    -- nothing in front equals the last element, so the loop keeps it as well
    have hNone : ¬(front.any (same · last)) = true := by
      rw [List.any_eq_true]
      rintro ⟨k, hk, hSame⟩
      rw [hLast k hk last (List.mem_singleton_self last)] at hSame
      cases hSame
    rw [keepFirst_append_singleton, ih hFront, keepNext, if_neg hNone]

/-- **What was kept is kept again as a whole.** -/
theorem keepFirst_keepFirst (items : List α) :
    keepFirst same (keepFirst same items) = keepFirst same items :=
  keepFirst_of_distinct (distinct_keepFirst items)

/-- **What is dropped equals an element that was kept before it.** The elements come in some
order, which says what before means. -/
theorem exists_kept_of_dropped {before : α → α → Prop} {items : List α}
    (hOrder : items.Pairwise before) {item : α} (hMem : item ∈ items)
    (hDropped : item ∉ keepFirst same items) :
    ∃ k ∈ keepFirst same items, before k item ∧ same k item = true := by
  induction items using List.reverseRecOn with
  | nil => cases hMem
  | append_singleton front last ih =>
    obtain ⟨hFront, -, hLast⟩ := List.pairwise_append.mp hOrder
    rw [keepFirst_append_singleton] at hDropped ⊢
    rcases List.mem_append.mp hMem with hMem | hMem
    · -- an element in front was dropped for one that is still kept
      obtain ⟨k, hk, hBefore, hSame⟩ := ih hFront hMem fun hKept => hDropped (subset_keepNext hKept)
      exact ⟨k, subset_keepNext hk, hBefore, hSame⟩
    · obtain rfl := List.mem_singleton.mp hMem
      -- the last element is only left out for one that is kept already
      by_cases hAny : ((keepFirst same front).any (same · item)) = true
      · obtain ⟨k, hk, hSame⟩ := List.any_eq_true.mp hAny
        exact ⟨k, subset_keepNext hk, hLast k (mem_of_mem_keepFirst hk) item hMem, hSame⟩
      · rw [keepNext, if_neg hAny] at hDropped
        exact absurd (List.mem_append_right _ hMem) hDropped

/-! ## Positions -/

/-- Of the items, those kept are the first occurrences. The marked ones are the kept with the
positions they had among the items. -/
structure KeepsFirst [BEq α] (items kept : List α) (marked : List (α × Nat)) : Prop where
  elements : marked.map Prod.fst = kept
  /-- What is kept stands in the order it came in. -/
  subsequence : marked.Sublist items.zipIdx
  /-- No kept element equals an earlier kept one, whichever way they are compared. -/
  distinct : kept.Pairwise fun a b => (a == b) = false ∧ (b == a) = false
  /-- What is dropped equals a kept element that precedes it. -/
  dropped : ∀ item ∈ items.zipIdx, item ∉ marked → ∃ k ∈ marked, k.2 < item.2 ∧ k.1 == item.1
  /-- Kept is exactly what no element before it equals. -/
  first : ∀ item ∈ items.zipIdx,
    (item ∈ marked ↔ ∀ other ∈ items.zipIdx, other.2 < item.2 → (other.1 == item.1) = false)
  /-- Nothing of it would be dropped a second time. -/
  again : keepFirst (· == ·) kept = kept

theorem pairwise_zipIdx (items : List α) : items.zipIdx.Pairwise fun a b => a.2 < b.2 := by
  rw [← List.pairwise_map, List.zipIdx_map_snd]
  exact List.pairwise_lt_range'

/-- Distinct elements at different positions differ. -/
theorem Distinct.of_lt {marked : List (α × Nat)} (h : Distinct (fun a b => same a.1 b.1) marked)
    (hOrder : marked.Pairwise fun a b => a.2 < b.2) {a b : α × Nat} (ha : a ∈ marked)
    (hb : b ∈ marked) (hLess : a.2 < b.2) : same a.1 b.1 = false := by
  -- of any two elements the one at the smaller position stands in front
  have hForward : marked.Pairwise fun a b => a.2 < b.2 → same a.1 b.1 = false :=
    h.imp fun {a b} hDiffer (_ : a.2 < b.2) => hDiffer
  -- and never the other way round
  have hBackward : marked.Pairwise (flip fun a b => a.2 < b.2 → same a.1 b.1 = false) :=
    hOrder.imp fun hLess hGreater => absurd hLess (Nat.lt_asymm hGreater)
  have hSelf : ∀ a ∈ marked, a.2 < a.2 → same a.1 a.1 = false := fun _ _ hLess =>
    absurd hLess (Nat.lt_irrefl _)
  exact hForward.forall_of_forall_of_flip hSelf hBackward ha hb hLess

/-- **Keeping first occurrences keeps exactly the first occurrences.** Equality need not be
reflexive. -/
theorem keepsFirst_keepFirst [BEq α] [PartialEquivBEq α] (items : List α) :
    ∃ marked, KeepsFirst items (keepFirst (· == ·) items) marked := by
  -- positions ride along, as equality does not look at them
  obtain ⟨marked, hMarked⟩ :
      ∃ marked, keepFirst (fun a b => a.1 == b.1) items.zipIdx = marked := ⟨_, rfl⟩
  have hElements : marked.map Prod.fst = keepFirst (· == ·) items := by
    rw [← hMarked, ← keepFirst_map fun _ _ => rfl, List.zipIdx_map_fst]
  have hSublist : marked.Sublist items.zipIdx := hMarked ▸ keepFirst_sublist items.zipIdx
  have hDistinct : Distinct (fun a b => a.1 == b.1) marked :=
    hMarked ▸ distinct_keepFirst items.zipIdx
  have hOrder : marked.Pairwise fun a b => a.2 < b.2 := (pairwise_zipIdx items).sublist hSublist
  have hDropped : ∀ item ∈ items.zipIdx, item ∉ marked →
      ∃ k ∈ marked, k.2 < item.2 ∧ k.1 == item.1 := fun item hMem hOut =>
    hMarked ▸ exists_kept_of_dropped (pairwise_zipIdx items) hMem (hMarked ▸ hOut)
  refine ⟨marked, hElements, hSublist, ?_, hDropped, ?_, keepFirst_keepFirst items⟩
  · exact (distinct_keepFirst items).imp fun hDiffer => ⟨hDiffer, BEq.symm_false hDiffer⟩
  · intro item hMem
    constructor
    · -- a kept element has no equal before it
      intro hKept other hOther hLess
      by_cases hOtherKept : other ∈ marked
      · exact hDistinct.of_lt hOrder hOtherKept hKept hLess
      · -- what the other one was dropped for would equal the item, too
        obtain ⟨k, hk, hBefore, hEqual⟩ := hDropped other hOther hOtherKept
        have hDiffer := hDistinct.of_lt hOrder hk hKept (Nat.lt_trans hBefore hLess)
        rw [← Bool.not_eq_true] at hDiffer ⊢
        exact fun hOtherEqual => hDiffer (BEq.trans hEqual hOtherEqual)
    · -- an element without an equal before it cannot have been dropped
      intro hNone
      by_contra hOut
      obtain ⟨k, hk, hBefore, hEqual⟩ := hDropped item hMem hOut
      rw [hNone k (hSublist.subset hk) hBefore] at hEqual
      cases hEqual

end TypedConfig
