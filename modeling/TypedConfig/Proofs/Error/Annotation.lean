import TypedConfig.Error
import TypedConfig.Proofs.Path

/-!
# Annotating errors with paths

An error collects its path from the inside outwards, while the path a field is
read from is joined from the outside inwards. Both agree, because annotating an
error with two names one after the other is annotating it with the joined path
once: `within_within`. That needs the inner name to be one that shows — neither
blank nor opening a bracket — and nothing of the outer one.

A failure is told apart into its cause, the steps that lead from a field to the
value that failed, and the path of the field; `Failure.toError` is the one error
that says all of this.

Main results:

* `Error.within_within` — two annotations are one.
* `Failure.toError_eq` / `Failure.path?_toError_eq_none_iff` — a failure has a
  single annotation around its cause, or none when there is nothing to say.
-/

namespace TypedConfig

namespace Error

/-! ## Single annotations -/

@[simp] theorem within_empty (e : Error) : within "" e = e :=
  if_pos rfl

theorem within_of_path?_eq_none {segment : String} (hSegment : segment ≠ "") {e : Error}
    (h : e.path? = none) : within segment e = located segment e := by
  refine (if_neg hSegment).trans ?_
  cases e with
  | located path source => cases h
  | _ => rfl

theorem within_located {segment : String} (hSegment : segment ≠ "") (path : String)
    (source : Error) :
    within segment (located path source) = located (attach segment path) source :=
  if_neg hSegment

/-- An error is a cause of its own, or has an annotation. -/
theorem exists_located_or_path?_eq_none (e : Error) :
    (∃ path source, e = located path source) ∨ e.path? = none := by
  cases e with
  | located path source => exact .inl ⟨path, source, rfl⟩
  | _ => exact .inr rfl

theorem rootCause_of_path?_eq_none {e : Error} (h : e.path? = none) : e.rootCause = e := by
  cases e with
  | located path source => cases h
  | _ => rfl

/-! ## Annotations one after the other -/

/-- A name that shows in a path: it is not blank, and it does not look like an index. -/
def Shows (name : String) : Prop :=
  Text.isBlank name = false ∧ name.toList.head? ≠ some '['

instance (name : String) : Decidable (Shows name) :=
  inferInstanceAs (Decidable (_ ∧ _))

theorem Shows.ne_empty {name : String} (h : Shows name) : name ≠ "" :=
  Path.ne_empty_of_not_blank h.1

theorem Shows.append {name : String} (h : Shows name) (rest : String) : Shows (name ++ rest) := by
  refine ⟨Path.isBlank_append h.1, ?_⟩
  rw [Path.head?_append h.1]
  exact h.2

theorem Shows.attach_eq_join {name : String} (h : Shows name) (segment : String) :
    attach segment name = Path.join segment name := by
  rw [attach, if_neg h.2]

/-- Whatever stands behind a name that is not blank, the whole begins with the name. -/
theorem exists_attach_eq_append {name : String} (path : String) (h : Text.isBlank name = false) :
    ∃ rest, attach name path = name ++ rest := by
  unfold attach
  split
  · exact ⟨path, rfl⟩
  · exact Path.exists_join_eq_append path h

theorem Shows.attach {name : String} (h : Shows name) (path : String) :
    Shows (attach name path) := by
  obtain ⟨rest, hAttach⟩ := exists_attach_eq_append path h.1
  rw [hAttach]
  exact h.append rest

theorem attach_attach {name : String} (h : Shows name) (root path : String) :
    attach root (attach name path) = attach (Path.join root name) path := by
  rw [(h.attach path).attach_eq_join]
  unfold Error.attach
  split
  · -- an index stays glued to the name
    exact Path.join_append h.1 path
  · exact (Path.join_assoc root name path).symm

/-- Annotating with a name and then with a root is annotating with the path they join to. -/
theorem within_within {name : String} (h : Shows name) (root : String) (e : Error) :
    within root (within name e) = within (Path.join root name) e := by
  by_cases hRoot : root = ""
  · -- nothing is joined and nothing is annotated
    subst hRoot
    rw [within_empty, Path.join_of_blank_left rfl h.1]
  · have hJoined : Path.join root name ≠ "" := by
      cases hBlank : Text.isBlank root with
      | true =>
        rw [Path.join_of_blank_left hBlank h.1]
        exact h.ne_empty
      -- a blank root is left out by the join, too, so the name is what is left
      | false => exact Path.ne_empty_of_not_blank (Path.isBlank_join hBlank)
    -- an error that is located already gets a longer path, any other one its first
    rcases exists_located_or_path?_eq_none e with ⟨path, source, rfl⟩ | hCause
    · rw [within_located h.ne_empty, within_located hRoot, within_located hJoined,
        attach_attach h]
    · rw [within_of_path?_eq_none h.ne_empty hCause, within_located hRoot,
        within_of_path?_eq_none hJoined hCause, h.attach_eq_join]

end Error

/-! ## Failures -/

/-- A step from a field towards a value inside it. -/
inductive Step where
  /-- To an item of a list, by its index. -/
  | index (i : Nat)
  /-- To an entry of a map, by its key. -/
  | key (name : String)
  /-- To a field of a section that is an element of a container. -/
  | field (name : String)

/-- The segment that stands for a step in paths. -/
def Step.segment : Step → String
  | index i => Error.indexSegment i
  | key name => Error.keySegment name
  | field name => name

theorem Step.segment_index_ne_empty (i : Nat) : (Step.index i).segment ≠ "" := by
  intro h
  have hChars := congrArg String.toList h
  simp [Step.segment, Error.indexSegment] at hChars

/-- A key that would leave no trace in a path is quoted. -/
theorem Step.segment_key_ne_empty (key : String) : (Step.key key).segment ≠ "" := by
  show Error.keySegment key ≠ ""
  unfold Error.keySegment
  split
  · intro h
    have hChars := congrArg String.toList h
    simp at hChars
  · -- a key without special characters is its own segment, so it is not empty
    next hPlain =>
    rintro rfl
    exact hPlain rfl

/-- What went wrong and where: the path of the field it happened in, the steps from
there to the value that failed, outermost first, and the cause. The path is empty for
what is not read from the store. -/
structure Failure where
  path : String
  steps : List Step
  cause : Error

namespace Failure

/-- The failure of a value itself. -/
def here (cause : Error) : Failure :=
  ⟨"", [], cause⟩

/-- The failure one step further out. -/
def below (step : Step) (f : Failure) : Failure :=
  { f with steps := step :: f.steps }

/-- The failure in a field of the store. -/
def readAt (path : String) (f : Failure) : Failure :=
  { f with path }

/-- The cause, annotated with the steps from the inside outwards. -/
def stepped (f : Failure) : Error :=
  f.steps.foldr (fun step e => e.within step.segment) f.cause

/-- The error that stands for a failure: the path of the field in front of the steps. -/
def toError (f : Failure) : Error :=
  f.stepped.within f.path

@[simp] theorem toError_here (cause : Error) : (here cause).toError = cause :=
  Error.within_empty cause

theorem toError_of_path_eq {f : Failure} (h : f.path = "") : f.toError = f.stepped := by
  rw [toError, h, Error.within_empty]

theorem toError_below {f : Failure} (h : f.path = "") (step : Step) :
    (f.below step).toError = f.toError.within step.segment := by
  have hBelow : (f.below step).path = "" := h
  rw [toError_of_path_eq hBelow, toError_of_path_eq h]
  rfl

theorem toError_readAt {f : Failure} (h : f.path = "") (path : String) :
    (f.readAt path).toError = f.toError.within path := by
  rw [toError_of_path_eq h]
  rfl

/-- Every step shows in a path, and what is given makes sure that the cause has no path of
its own. -/
structure Sound (given : Prop) (f : Failure) : Prop where
  plain : given → f.cause.path? = none
  visible : ∀ step ∈ f.steps, step.segment ≠ ""

section
variable {given : Prop}

theorem Sound.here {cause : Error} (h : given → cause.path? = none) : (here cause).Sound given :=
  ⟨h, nofun⟩

theorem Sound.below {step : Step} {f : Failure} (h : f.Sound given) (hStep : step.segment ≠ "") :
    (f.below step).Sound given :=
  ⟨h.plain, List.forall_mem_cons.mpr ⟨hStep, h.visible⟩⟩

theorem Sound.readAt {path : String} {f : Failure} (h : f.Sound given) :
    (f.readAt path).Sound given :=
  ⟨h.plain, h.visible⟩

/-- The steps leave one annotation around the cause, or none if there are none. -/
theorem stepped_eq {f : Failure} (h : f.Sound given) (hGiven : given) :
    (f.steps = [] ∧ f.stepped = f.cause) ∨
      f.steps ≠ [] ∧ ∃ path, f.stepped = .located path f.cause := by
  obtain ⟨path, steps, cause⟩ := f
  obtain ⟨hPlain, hVisible⟩ := h
  cases steps with
  | nil => exact .inl ⟨rfl, rfl⟩
  | cons step steps =>
    refine .inr ⟨nofun, ?_⟩
    -- the innermost step makes the annotation, and the others only lengthen its path
    induction steps generalizing step with
    | nil =>
      exact ⟨_, Error.within_of_path?_eq_none (hVisible step (List.mem_cons_self ..))
        (hPlain hGiven)⟩
    | cons next steps ih =>
      obtain ⟨inner, hInner⟩ := ih next hPlain fun other hMem =>
        hVisible other (List.mem_cons_of_mem _ hMem)
      refine ⟨Error.attach step.segment inner, ?_⟩
      have hOuter := Error.within_located (hVisible step (List.mem_cons_self ..)) inner cause
      rw [← hOuter, ← hInner]
      rfl

/-- A failure has at most one annotation, directly around its cause. -/
theorem toError_eq {f : Failure} (h : f.Sound given) (hGiven : given) :
    (f.steps = [] ∧ f.path = "" ∧ f.toError = f.cause) ∨
      ¬(f.steps = [] ∧ f.path = "") ∧ ∃ path, f.toError = .located path f.cause := by
  unfold toError
  by_cases hPath : f.path = ""
  · -- without a path only the steps annotate
    rw [hPath, Error.within_empty]
    rcases stepped_eq h hGiven with ⟨hSteps, hCause⟩ | ⟨hSteps, hLocated⟩
    · exact .inl ⟨hSteps, rfl, hCause⟩
    · exact .inr ⟨fun hBoth => hSteps hBoth.1, hLocated⟩
  · refine .inr ⟨fun hBoth => hPath hBoth.2, ?_⟩
    -- the path annotates what the steps have left, once more or for the first time
    rcases stepped_eq h hGiven with ⟨-, hCause⟩ | ⟨-, path, hLocated⟩
    · exact ⟨_, by rw [hCause, Error.within_of_path?_eq_none hPath (h.plain hGiven)]⟩
    · exact ⟨_, by rw [hLocated, Error.within_located hPath]⟩

theorem path?_toError_eq_none_iff {f : Failure} (h : f.Sound given) (hGiven : given) :
    f.toError.path? = none ↔ f.steps = [] ∧ f.path = "" := by
  rcases toError_eq h hGiven with ⟨hSteps, hPath, hCause⟩ | ⟨hSomewhere, path, hLocated⟩
  · rw [hCause]
    exact iff_of_true (h.plain hGiven) ⟨hSteps, hPath⟩
  · rw [hLocated]
    exact iff_of_false nofun hSomewhere

theorem rootCause_toError {f : Failure} (h : f.Sound given) (hGiven : given) :
    f.toError.rootCause = f.cause := by
  have hCause : f.cause.rootCause = f.cause := Error.rootCause_of_path?_eq_none (h.plain hGiven)
  rcases toError_eq h hGiven with ⟨-, -, hSame⟩ | ⟨-, path, hLocated⟩
  · rw [hSame, hCause]
  · rw [hLocated, Error.rootCause, hCause]

end

end Failure

end TypedConfig
