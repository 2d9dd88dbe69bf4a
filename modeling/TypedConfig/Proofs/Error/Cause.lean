import TypedConfig.Proofs.Error.Annotation
import TypedConfig.Proofs.Run

/-!
# Runs up to the paths of their errors

Where a value stands decides which annotations its error collects on the way out, and
nothing else about it. Two runs agree when they return the same value or fail with the
same root cause. `Run.bare` strips the error of a run down to its root cause, so that
agreement is an equation and passes through sequences and annotations.

Main results:

* `Error.rootCause_within` — an annotation leaves the root cause alone.
* `Run.bare_bind` / `Run.bare_mapError` — stripping sequences and annotated runs.
* `Run.AgreesWith.of_bare_eq` — runs that are the same once stripped agree.
-/

namespace TypedConfig

namespace Error

@[simp] theorem rootCause_within (segment : String) (e : Error) :
    (within segment e).rootCause = e.rootCause := by
  by_cases hSegment : segment = ""
  · rw [hSegment, within_empty]
  · rcases exists_located_or_path?_eq_none e with ⟨path, source, rfl⟩ | hCause
    · rw [within_located hSegment, rootCause, rootCause]
    · rw [within_of_path?_eq_none hSegment hCause, rootCause]

theorem rootCause_withinIndex (index : Nat) (e : Error) :
    (e.withinIndex index).rootCause = e.rootCause :=
  rootCause_within _ e

theorem rootCause_withinKey (key : String) (e : Error) :
    (e.withinKey key).rootCause = e.rootCause :=
  rootCause_within _ e

end Error

namespace Run

variable {α β : Type _}

/-- The runs return the same value, or fail with the same root cause. -/
structure AgreesWith (r r' : Run α) : Prop where
  returns : ∀ a, r.Returns a ↔ r'.Returns a
  fails : ∀ cause, (∃ e, r.Fails e ∧ e.rootCause = cause) ↔ ∃ e, r'.Fails e ∧ e.rootCause = cause

/-- The run, with nothing but the root cause left of its error. -/
def bare (r : Run α) : Run α :=
  r.mapError Error.rootCause

theorem AgreesWith.of_bare_eq {r r' : Run α} (h : r.bare = r'.bare) : r.AgreesWith r' where
  returns a := by
    rw [← returns_mapError (f := Error.rootCause) (r := r),
      ← returns_mapError (f := Error.rootCause) (r := r')]
    exact iff_of_eq (congrArg (Returns · a) h)
  fails cause := by
    rw [← fails_mapError, ← fails_mapError]
    exact iff_of_eq (congrArg (Fails · cause) h)

theorem bare_bind (r : Run α) (f : α → Run β) :
    (r >>= f).bare = r.bare >>= fun a => (f a).bare := by
  apply ExceptT.ext
  show (r >>= f).run.map (Except.mapError Error.rootCause) = _
  -- a run that is too deep stays so, an error is stripped, and a value goes on
  rcases hRun : r.run with _ | (e | a)
  · have hBare : r.bare.run = none := run_mapError_of_none _ hRun
    rw [run_bind_of_none f hRun, run_bind_of_none _ hBare]
    rfl
  · have hFails : (r >>= f).Fails e := fails_bind.mpr (.inl hRun)
    have hBare : r.bare.Fails e.rootCause := fails_mapError.mpr ⟨e, hRun, rfl⟩
    have hFailsBare : (r.bare >>= fun a => (f a).bare).Fails e.rootCause :=
      fails_bind.mpr (.inl hBare)
    rw [show (r >>= f).run = some (.error e) from hFails]
    exact hFailsBare.symm
  · have hBare : r.bare.Returns a := returns_mapError.mpr hRun
    rw [run_bind_of_returns hRun, run_bind_of_returns hBare]
    rfl

/-- A run that comes to an outcome, followed by runs that do. -/
theorem bare_bind_ofOutcome {r : Run α} {o : Outcome α} {f : α → Run β} {g : α → Outcome β}
    (h : r.bare = (ofOutcome o).bare) (hRest : ∀ a, (f a).bare = (ofOutcome (g a)).bare) :
    (r >>= f).bare = (ofOutcome (o >>= g)).bare := by
  rw [bare_bind, h]
  cases o with
  | error e => rfl
  | ok a => exact hRest a

theorem bare_bind_pure {r : Run α} {o : Outcome α} (h : r.bare = (ofOutcome o).bare)
    (f : α → β) : (r >>= fun a => pure (f a)).bare = (ofOutcome (o.map f)).bare := by
  rw [bare_bind, h]
  cases o <;> rfl

/-- An annotation is gone once the run is stripped. -/
theorem bare_mapError {f : Error → Error} (h : ∀ e, (f e).rootCause = e.rootCause) (r : Run α) :
    (r.mapError f).bare = r.bare := by
  apply ExceptT.ext
  show (r.run.map (Except.mapError f)).map (Except.mapError Error.rootCause) =
    r.run.map (Except.mapError Error.rootCause)
  -- only errors are changed, and an annotation keeps their cause
  rcases r.run with _ | (e | a)
  · rfl
  · exact congrArg (fun cause => some (Except.error cause)) (h e)
  · rfl

end Run

end TypedConfig
