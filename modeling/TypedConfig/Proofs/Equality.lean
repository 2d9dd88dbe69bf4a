import Mathlib
import TypedConfig.Resolved

/-!
# The equalities of values

Scalars, configuration values and resolved values each have an equality of their own. None of
them is reflexive: a NaN differs from itself, and so does whatever it is a part of, and sections,
deferred and custom values equal nothing at all. What is equal to something can be exchanged for
it, though: the equalities are symmetric and transitive.

A container is compared with one of the same kind only, item by item. So each proof has one case
for every kind of value and none for two different ones.

Main results:

* `Scalar.equal_symm` / `Scalar.equal_trans`
* `Value.equal_symm` / `Value.equal_trans`
* `Resolved.sameValue_symm` / `Resolved.sameValue_trans`
-/

namespace TypedConfig

/-! ## Scalars -/

namespace Scalar

theorem equal_symm : ∀ {a b : Scalar}, a.equal b = true → b.equal a = true
  | string _, string _, h => BEq.symm h
  | long _, long _, h => BEq.symm h
  | double _, double _, h => BEq.symm h
  | boolean _, boolean _, h => BEq.symm h

theorem equal_trans : ∀ {a b c : Scalar}, a.equal b = true → b.equal c = true → a.equal c = true
  | string _, string _, string _, h, h' => BEq.trans h h'
  | long _, long _, long _, h, h' => BEq.trans h h'
  | double _, double _, double _, h, h' => BEq.trans h h'
  | boolean _, boolean _, boolean _, h, h' => BEq.trans h h'

instance : PartialEquivBEq Scalar where
  symm := equal_symm
  trans := equal_trans

/-- Only a double can differ from itself. -/
theorem beq_self : ∀ {s : Scalar}, s.kind ≠ .double → s == s
  | string s, _ => beq_self_eq_true s
  | long n, _ => beq_self_eq_true n
  | boolean b, _ => beq_self_eq_true b
  | double _, h => absurd rfl h

end Scalar

/-! ## Configuration values -/

namespace Value

mutual

theorem equal_symm : ∀ {a b : Value}, a.equal b = true → b.equal a = true
  | null, null, _ => rfl
  | bool _, bool _, h => BEq.symm h
  | long _, long _, h => BEq.symm h
  | double _, double _, h => BEq.symm h
  | string _, string _, h => BEq.symm h
  | expression ⟨_, _⟩, expression ⟨_, _⟩, h => BEq.symm h
  | list _, list _, h => equalItems_symm h
  | set _, set _, h => equalItems_symm h
  | map _, map _, h => equalEntries_symm h
termination_by structural a => a

theorem equalItems_symm : ∀ {items others : List Value},
    equalItems items others = true → equalItems others items = true
  | [], [], _ => rfl
  | _ :: _, _ :: _, h => by
    rw [equalItems, Bool.and_eq_true] at h ⊢
    exact ⟨equal_symm h.1, equalItems_symm h.2⟩
termination_by structural items => items

theorem equalEntries_symm : ∀ {entries others : List (String × Value)},
    equalEntries entries others = true → equalEntries others entries = true
  | [], [], _ => rfl
  | (_, _) :: _, (_, _) :: _, h => by
    rw [equalEntries, Bool.and_eq_true, Bool.and_eq_true] at h ⊢
    obtain ⟨⟨hKey, hValue⟩, hRest⟩ := h
    exact ⟨⟨BEq.symm hKey, equal_symm hValue⟩, equalEntries_symm hRest⟩
termination_by structural entries => entries

end

mutual

theorem equal_trans : ∀ {a b c : Value}, a.equal b = true → b.equal c = true → a.equal c = true
  | null, null, null, _, _ => rfl
  | bool _, bool _, bool _, h, h' => BEq.trans h h'
  | long _, long _, long _, h, h' => BEq.trans h h'
  | double _, double _, double _, h, h' => BEq.trans h h'
  | string _, string _, string _, h, h' => BEq.trans h h'
  | expression ⟨_, _⟩, expression ⟨_, _⟩, expression ⟨_, _⟩, h, h' => BEq.trans h h'
  | list _, list _, list _, h, h' => equalItems_trans h h'
  | set _, set _, set _, h, h' => equalItems_trans h h'
  | map _, map _, map _, h, h' => equalEntries_trans h h'
termination_by structural a => a

theorem equalItems_trans : ∀ {items others more : List Value}, equalItems items others = true →
    equalItems others more = true → equalItems items more = true
  | [], [], [], _, _ => rfl
  | _ :: _, _ :: _, _ :: _, h, h' => by
    rw [equalItems, Bool.and_eq_true] at h h' ⊢
    exact ⟨equal_trans h.1 h'.1, equalItems_trans h.2 h'.2⟩
termination_by structural items => items

theorem equalEntries_trans : ∀ {entries others more : List (String × Value)},
    equalEntries entries others = true → equalEntries others more = true →
      equalEntries entries more = true
  | [], [], [], _, _ => rfl
  | (_, _) :: _, (_, _) :: _, (_, _) :: _, h, h' => by
    -- keys and values are compared one by one
    rw [equalEntries, Bool.and_eq_true, Bool.and_eq_true] at h h' ⊢
    obtain ⟨⟨hKey, hValue⟩, hRest⟩ := h
    obtain ⟨⟨hKey', hValue'⟩, hRest'⟩ := h'
    exact ⟨⟨BEq.trans hKey hKey', equal_trans hValue hValue'⟩, equalEntries_trans hRest hRest'⟩
termination_by structural entries => entries

end

instance : PartialEquivBEq Value where
  symm := equal_symm
  trans := equal_trans

end Value

/-! ## Resolved values -/

namespace Resolved

instance : BEq Resolved := ⟨sameValue⟩

mutual

theorem sameValue_symm : ∀ {a b : Resolved}, a.sameValue b = true → b.sameValue a = true
  | scalar _, scalar _, h => Scalar.equal_symm h
  | raw _, raw _, h => Value.equal_symm h
  | list _, list _, h => allSame_symm h
  | set _, set _, h => allSame_symm h
  | array _, array _, h => allSame_symm h
  | map _, map _, h => allSameEntries_symm h
termination_by structural a => a

theorem allSame_symm : ∀ {items others : List Resolved},
    allSame items others = true → allSame others items = true
  | [], [], _ => rfl
  | _ :: _, _ :: _, h => by
    rw [allSame, Bool.and_eq_true] at h ⊢
    exact ⟨sameValue_symm h.1, allSame_symm h.2⟩
termination_by structural items => items

theorem allSameEntries_symm : ∀ {entries others : List (Resolved × Resolved)},
    allSameEntries entries others = true → allSameEntries others entries = true
  | [], [], _ => rfl
  | (_, _) :: _, (_, _) :: _, h => by
    rw [allSameEntries, Bool.and_eq_true, Bool.and_eq_true] at h ⊢
    obtain ⟨⟨hKey, hValue⟩, hRest⟩ := h
    exact ⟨⟨sameValue_symm hKey, sameValue_symm hValue⟩, allSameEntries_symm hRest⟩
termination_by structural entries => entries

end

mutual

theorem sameValue_trans : ∀ {a b c : Resolved},
    a.sameValue b = true → b.sameValue c = true → a.sameValue c = true
  | scalar _, scalar _, scalar _, h, h' => Scalar.equal_trans h h'
  | raw _, raw _, raw _, h, h' => Value.equal_trans h h'
  | list _, list _, list _, h, h' => allSame_trans h h'
  | set _, set _, set _, h, h' => allSame_trans h h'
  | array _, array _, array _, h, h' => allSame_trans h h'
  | map _, map _, map _, h, h' => allSameEntries_trans h h'
termination_by structural a => a

theorem allSame_trans : ∀ {items others more : List Resolved}, allSame items others = true →
    allSame others more = true → allSame items more = true
  | [], [], [], _, _ => rfl
  | _ :: _, _ :: _, _ :: _, h, h' => by
    rw [allSame, Bool.and_eq_true] at h h' ⊢
    exact ⟨sameValue_trans h.1 h'.1, allSame_trans h.2 h'.2⟩
termination_by structural items => items

theorem allSameEntries_trans : ∀ {entries others more : List (Resolved × Resolved)},
    allSameEntries entries others = true → allSameEntries others more = true →
      allSameEntries entries more = true
  | [], [], [], _, _ => rfl
  | (_, _) :: _, (_, _) :: _, (_, _) :: _, h, h' => by
    rw [allSameEntries, Bool.and_eq_true, Bool.and_eq_true] at h h' ⊢
    obtain ⟨⟨hKey, hValue⟩, hRest⟩ := h
    obtain ⟨⟨hKey', hValue'⟩, hRest'⟩ := h'
    exact ⟨⟨sameValue_trans hKey hKey', sameValue_trans hValue hValue'⟩,
      allSameEntries_trans hRest hRest'⟩
termination_by structural entries => entries

end

instance : PartialEquivBEq Resolved where
  symm := sameValue_symm
  trans := sameValue_trans

end Resolved

end TypedConfig
