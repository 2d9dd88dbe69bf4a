import TypedConfig.Mapping

/-!
# Runs of the engine

A run ends with a value, with an error, or not at all. This module says what a
run that ends went through: `Run.Returns` and `Run.Fails` are the judgements, and
each way of building a run has one lemma that takes a judgement apart, so that
later proofs never open the monad.

Main results:

* `Run.returns_bind` — a sequence returns exactly when its first part returns
  and the rest returns from there.
* `Run.returns_mapError` — annotating the error of a run changes nothing about
  the value it returns.
* `Run.fails_bind` / `Run.fails_mapError` — where the error of a sequence comes
  from, and what an annotation makes of it.
* `Run.MatchedBy.bind` / `Run.MatchedBy.mapError` — what keeps two runs matched.
-/

namespace TypedConfig.Run

variable {α β : Type _}

/-- The run ends with a value. -/
def Returns (r : Run α) (a : α) : Prop :=
  r.run = some (.ok a)

theorem Returns.unique {r : Run α} {a b : α} (h : r.Returns a) (h' : r.Returns b) : a = b :=
  Except.ok.inj (Option.some.inj (h.symm.trans h'))

@[simp] theorem returns_pure {a b : α} : (pure a : Run α).Returns b ↔ a = b := by
  show some (Except.ok a) = some (.ok b) ↔ a = b
  simp

@[simp] theorem returns_ofOutcome {o : Outcome α} {a : α} :
    (ofOutcome o).Returns a ↔ o = .ok a := by
  show some o = some (.ok a) ↔ o = .ok a
  simp

@[simp] theorem not_returns_fail {e : Error} {a : α} : ¬(fail e : Run α).Returns a := by
  intro h
  have hError : (Except.error e : Outcome α) = .ok a := returns_ofOutcome.mp h
  cases hError

@[simp] theorem not_returns_tooDeep {a : α} : ¬(tooDeep : Run α).Returns a := by
  intro h
  cases (show (none : Option (Outcome α)) = some (.ok a) from h)

theorem ofOutcome_ok_bind {a : α} {f : α → Run β} : (ofOutcome (.ok a) >>= f) = f a :=
  rfl

theorem ofOutcome_error_bind {e : Error} {f : α → Run β} :
    (ofOutcome (.error e) >>= f) = fail e :=
  rfl

/-- A sequence returns exactly when its first part does and the rest returns
from there. -/
theorem returns_bind {r : Run α} {f : α → Run β} {b : β} :
    (r >>= f).Returns b ↔ ∃ a, r.Returns a ∧ (f a).Returns b := by
  rw [Returns, ExceptT.run_bind]
  rcases hr : r.run with _ | (e | a)
  · simp [Returns, hr]
  · simp [Returns, hr]
  · simp [Returns, hr]

/-- Annotating the error of a run changes nothing about the value it returns. -/
@[simp] theorem returns_mapError {f : Error → Error} {r : Run α} {a : α} :
    (mapError f r).Returns a ↔ r.Returns a := by
  show r.run.map (Except.mapError f) = some (.ok a) ↔ r.run = some (.ok a)
  rcases r.run with _ | (e | b)
  · exact iff_of_false nofun nofun
  · exact iff_of_false nofun nofun
  · exact Iff.rfl

/-- The run ends with an error. -/
def Fails (r : Run α) (e : Error) : Prop :=
  r.run = some (.error e)

@[simp] theorem not_fails_pure {a : α} {e : Error} : ¬(pure a : Run α).Fails e := by
  intro h
  cases (show some (Except.ok a : Outcome α) = some (.error e) from h)

@[simp] theorem fails_ofOutcome {o : Outcome α} {e : Error} :
    (ofOutcome o).Fails e ↔ o = .error e := by
  show some o = some (.error e) ↔ o = .error e
  simp

@[simp] theorem fails_fail {e e' : Error} : (fail e : Run α).Fails e' ↔ e = e' := by
  rw [fail, fails_ofOutcome, Except.error.injEq]

@[simp] theorem not_fails_tooDeep {e : Error} : ¬(tooDeep : Run α).Fails e := by
  intro h
  cases (show (none : Option (Outcome α)) = some (.error e) from h)

/-- A sequence fails in its first part, or in the rest once that part has returned. -/
theorem fails_bind {r : Run α} {f : α → Run β} {e : Error} :
    (r >>= f).Fails e ↔ r.Fails e ∨ ∃ a, r.Returns a ∧ (f a).Fails e := by
  rw [Fails, ExceptT.run_bind]
  rcases hr : r.run with _ | (e' | a)
  · simp [Fails, Returns, hr]
  · simp [Fails, Returns, hr]
  · simp [Fails, Returns, hr]

/-- An annotated run fails when the run itself does, with the annotated error. -/
theorem fails_mapError {f : Error → Error} {r : Run α} {e : Error} :
    (mapError f r).Fails e ↔ ∃ cause, r.Fails cause ∧ f cause = e := by
  show r.run.map (Except.mapError f) = some (.error e) ↔
    ∃ cause, r.run = some (.error cause) ∧ f cause = e
  -- a run has no outcome, an error or a value, and the annotation changes the error only
  rcases r.run with _ | (cause | a)
  · constructor
    · intro h
      cases h
    · rintro ⟨cause, hNone, -⟩
      cases hNone
  · constructor
    · intro h
      exact ⟨cause, rfl, Except.error.inj (Option.some.inj h)⟩
    · rintro ⟨other, hSame, rfl⟩
      obtain rfl : cause = other := Except.error.inj (Option.some.inj hSame)
      rfl
  · constructor
    · intro h
      cases h
    · rintro ⟨cause, hOk, -⟩
      cases hOk

/-! ## Outcomes -/

theorem run_bind_of_returns {r : Run α} {f : α → Run β} {a : α} (h : r.Returns a) :
    (r >>= f).run = (f a).run := by
  rw [ExceptT.run_bind, show r.run = some (.ok a) from h]
  rfl

/-- A sequence has no outcome if its first part has none. -/
theorem run_bind_of_none {r : Run α} (f : α → Run β) (h : r.run = none) :
    (r >>= f).run = none := by
  rw [ExceptT.run_bind, h]
  rfl

theorem run_mapError_of_none {r : Run α} (f : Error → Error) (h : r.run = none) :
    (mapError f r).run = none := by
  show r.run.map (Except.mapError f) = none
  rw [h, Option.map_none]

/-- Errors may be annotated with nothing. -/
theorem mapError_id (r : Run α) : (r.mapError fun e => e) = r := by
  apply ExceptT.ext
  show r.run.map (Except.mapError fun e => e) = r.run
  rcases r.run with _ | (e | a) <;> rfl

/-! ## Two runs -/

/-- Where the first run returns, the second one returns something related to that, and where it
fails, the second one fails with the same error. -/
structure MatchedBy (R : α → β → Prop) (r : Run α) (r' : Run β) : Prop where
  returns : ∀ a, r.Returns a → ∃ b, r'.Returns b ∧ R a b
  fails : ∀ e, r.Fails e → r'.Fails e

namespace MatchedBy

variable {γ δ : Type _} {R : α → β → Prop} {S : γ → δ → Prop}

theorem refl {R : α → α → Prop} (hRefl : ∀ a, R a a) (r : Run α) : MatchedBy R r r :=
  ⟨fun a hReturns => ⟨a, hReturns, hRefl a⟩, fun _ hFails => hFails⟩

theorem pure {a : α} {b : β} (h : R a b) : MatchedBy R (Pure.pure a) (Pure.pure b) :=
  ⟨fun _ hReturns => ⟨b, returns_pure.mpr rfl, returns_pure.mp hReturns ▸ h⟩,
    fun _ hFails => absurd hFails not_fails_pure⟩

/-- Matched runs go on matched. -/
theorem bind {r : Run α} {r' : Run β} {f : α → Run γ} {f' : β → Run δ} (h : MatchedBy R r r')
    (hRest : ∀ a b, R a b → MatchedBy S (f a) (f' b)) : MatchedBy S (r >>= f) (r' >>= f') := by
  constructor
  · -- a value is that of the rest, behind one of the first run
    intro c hReturns
    obtain ⟨a, hFirst, hSecond⟩ := returns_bind.mp hReturns
    obtain ⟨b, hFirst', hRelated⟩ := h.returns a hFirst
    obtain ⟨d, hSecond', hEnd⟩ := (hRest a b hRelated).returns c hSecond
    exact ⟨d, returns_bind.mpr ⟨b, hFirst', hSecond'⟩, hEnd⟩
  · -- an error is that of the first run or of the rest
    intro e hFails
    rcases fails_bind.mp hFails with hFirst | ⟨a, hFirst, hSecond⟩
    · exact fails_bind.mpr (.inl (h.fails e hFirst))
    · obtain ⟨b, hFirst', hRelated⟩ := h.returns a hFirst
      exact fails_bind.mpr (.inr ⟨b, hFirst', (hRest a b hRelated).fails e hSecond⟩)

/-- After the same run, only the rest has to be matched. -/
theorem bind_same (r : Run α) {f : α → Run γ} {f' : α → Run δ}
    (hRest : ∀ a, MatchedBy S (f a) (f' a)) : MatchedBy S (r >>= f) (r >>= f') :=
  bind (refl Eq.refl r) fun a _ hSame => hSame ▸ hRest a

theorem mapError {r : Run α} {r' : Run β} (h : MatchedBy R r r') (f : Error → Error) :
    MatchedBy R (r.mapError f) (r'.mapError f) := by
  constructor
  · intro a hReturns
    obtain ⟨b, hReturns', hRelated⟩ := h.returns a (returns_mapError.mp hReturns)
    exact ⟨b, returns_mapError.mpr hReturns', hRelated⟩
  · intro e hFails
    -- the cause is common to both runs, and annotated in the same way
    obtain ⟨cause, hCause, hSame⟩ := fails_mapError.mp hFails
    exact fails_mapError.mpr ⟨cause, h.fails cause hCause, hSame⟩

end MatchedBy

end TypedConfig.Run
