import TypedConfig.Proofs.Later

/-!
# List reads, item by item

A list read takes its items one after the other. Each is evaluated and spread into the
values it stands for: the items of a list or a set, and otherwise the outcome alone. Every
one of these values is read as exactly one scalar. That happens before the next item is
looked at, so the first fault in order is the one that is reported, whether it lies in
evaluating an item or in reading what it was spread into.

Spreading goes one level deep. What is inside a list or a set that was spread is read as it
is, and no scalar comes from a container.

Main results:

* `Deferred.itemScalars_eq` — an item is spread, and its values are read.
* `Deferred.scalar_of_container` — what is evaluated to a container is no scalar.
* `Deferred.list_reads_appended` — list reads are put together from those of their items.
-/

namespace TypedConfig.Deferred

variable {evaluator : Option Evaluator} {kind : ScalarKind} {env : Environment}

/-- The values that an item of a list stands for: the items of what it is evaluated to, if
that is a list or a set, and otherwise that alone. -/
def spread (evaluator : Option Evaluator) (env : Environment) (item : Value) :
    Outcome (List Value) :=
  (rawRead ⟨item, evaluator⟩ env).map fun outcome => outcome.items?.getD [outcome]

/-- An item contributes one scalar for each of the values it stands for. -/
theorem itemScalars_eq (v item : Value) :
    itemScalars ⟨v, evaluator⟩ kind env item =
      spread evaluator env item >>= collect fun value => scalar ⟨value, evaluator⟩ kind env := by
  -- an item is resolved the way a value is
  have hRead : resolve ⟨v, evaluator⟩ env item = rawRead ⟨item, evaluator⟩ env := rfl
  rw [itemScalars, spread, hRead]
  cases rawRead ⟨item, evaluator⟩ env with
  | error e => rfl
  | ok outcome =>
    show _ = collect _ (outcome.items?.getD [outcome])
    dsimp only
    cases outcome.items? with
    | some inner => rfl
    -- a single outcome is a group of one
    | none =>
      rw [Option.getD_none, collect_singleton]
      show _ = (interpret ⟨v, evaluator⟩ kind env outcome).map _
      cases interpret ⟨v, evaluator⟩ kind env outcome <;> rfl

/-- The items of a list are read one after the other. -/
theorem list_of_items (items : List Value) :
    list ⟨.list items, evaluator⟩ kind env =
      (collect (fun item => spread evaluator env item >>=
        collect fun value => scalar ⟨value, evaluator⟩ kind env) items).map List.flatten := by
  rw [← collect_congr fun item _ => itemScalars_eq (.list items) item, list,
    resolve_of_not_expression rfl]
  dsimp only [Value.items?]
  cases collect (itemScalars ⟨.list items, evaluator⟩ kind env) items <;> rfl

theorem list_append (xs ys : List Value) :
    list ⟨.list (xs ++ ys), evaluator⟩ kind env = do
      let first ← list ⟨.list xs, evaluator⟩ kind env
      let second ← list ⟨.list ys, evaluator⟩ kind env
      return first ++ second := by
  rw [list_of_items, list_of_items, list_of_items, collect_append]
  -- an error of the first part ends the read
  cases collect _ xs with
  | error e => rfl
  | ok first =>
    cases collect _ ys with
    | error e => rfl
    | ok second => exact congrArg Except.ok List.flatten_append

theorem list_singleton (item : Value) :
    list ⟨.list [item], evaluator⟩ kind env =
      spread evaluator env item >>= collect fun value => scalar ⟨value, evaluator⟩ kind env := by
  rw [list_of_items, collect_singleton]
  cases spread evaluator env item >>= collect fun value => scalar ⟨value, evaluator⟩ kind env with
  | error e => rfl
  | ok scalars => exact congrArg Except.ok (List.append_nil scalars)

/-- What is evaluated to a container is no scalar of any kind. -/
theorem scalar_of_container {v outcome : Value}
    (hOutcome : rawRead ⟨v, evaluator⟩ env = .ok outcome)
    (hContainer : outcome.isContainer = true) :
    scalar ⟨v, evaluator⟩ kind env = .error (.coercion kind.native outcome.kind.name) := by
  -- a container is no expression, so it is not evaluated again
  have hOnce : outcome.isExpression = false := by
    cases outcome with
    | expression e => cases hContainer
    | _ => rfl
  rw [scalar, ← interpret_resolved hOutcome hOnce]
  -- no kind takes a container
  cases outcome with
  | list items | set items | map entries => cases kind <;> rfl
  | _ => cases hContainer

/-- **A list read loses, repeats and reorders nothing.** The read of two lists one after the
other is that of the first followed by that of the second; it has the error of the first if
that fails, and otherwise the error of the second. An item contributes one scalar for each
of the values it stands for, in their order. It fails if it cannot be evaluated, or else
with the error of the first of these values that is no scalar. A value that is a container,
or is evaluated to one, is none. -/
theorem list_reads_appended (evaluator : Option Evaluator) (kind : ScalarKind)
    (env : Environment) :
    (∀ xs ys : List Value, list ⟨.list (xs ++ ys), evaluator⟩ kind env = do
        let first ← list ⟨.list xs, evaluator⟩ kind env
        let second ← list ⟨.list ys, evaluator⟩ kind env
        return first ++ second) ∧
      (∀ (item : Value) (scalars : List Scalar),
        list ⟨.list [item], evaluator⟩ kind env = .ok scalars ↔
          ∃ values, spread evaluator env item = .ok values ∧
            values.map (fun value => scalar ⟨value, evaluator⟩ kind env) = scalars.map .ok) ∧
      (∀ (item : Value) (e : Error),
        list ⟨.list [item], evaluator⟩ kind env = .error e ↔
          spread evaluator env item = .error e ∨
            ∃ before value after, spread evaluator env item = .ok (before ++ value :: after) ∧
              (∀ other ∈ before, ∃ s, scalar ⟨other, evaluator⟩ kind env = .ok s) ∧
              scalar ⟨value, evaluator⟩ kind env = .error e) ∧
      ∀ v outcome : Value, rawRead ⟨v, evaluator⟩ env = .ok outcome →
        outcome.isContainer = true →
          scalar ⟨v, evaluator⟩ kind env = .error (.coercion kind.native outcome.kind.name) := by
  refine ⟨list_append, fun item scalars => ?_, fun item e => ?_,
    fun v outcome => scalar_of_container⟩
  · -- every value gives its scalar, in order
    rw [list_singleton, bind_eq_ok_iff]
    simp only [collect_eq_ok_iff]
  · -- the evaluation fails, or a value behind others that are scalars
    rw [list_singleton, bind_eq_error_iff]
    refine or_congr_right ⟨?_, ?_⟩
    · rintro ⟨values, hSpread, hFails⟩
      obtain ⟨before, value, after, rfl, hBefore, hValue⟩ := collect_eq_error_iff.mp hFails
      exact ⟨before, value, after, hSpread, hBefore, hValue⟩
    · rintro ⟨before, value, after, hSpread, hBefore, hValue⟩
      exact ⟨_, hSpread, collect_eq_error_iff.mpr ⟨before, value, after, rfl, hBefore, hValue⟩⟩

/-- Ports that are known by a name. -/
def knownPorts : List Value :=
  [.long 8080, .string " 81 "]

def portBindings : Environment :=
  [("known", .list knownPorts)]

/-- The name of the ports. -/
def portsByName : Value :=
  .expression ⟨"known", .variable "known"⟩

/-- The ports are spread among others, but not from inside a list. -/
theorem portsByName_spread :
    (rawRead ⟨portsByName, some .interpreter⟩ portBindings = .ok (.list knownPorts) ∧
        (Value.list knownPorts).isContainer = true) ∧
      scalar ⟨portsByName, some .interpreter⟩ .long portBindings =
        .error (.coercion "i64" "list") ∧
      list ⟨.list ([.string "80", portsByName] ++ [.set [.bool true, .null]]), some .interpreter⟩
          .long portBindings =
        .ok [.long 80, .long 8080, .long 81, .long 1, .long 0] ∧
      list ⟨.list [.list [.long 80, portsByName, .string "none"]], some .interpreter⟩ .long
          portBindings =
        .error (.coercion "i64" "list") := by
  obtain ⟨hAppend, hOk, hError, hContainer⟩ :=
    list_reads_appended (some .interpreter) .long portBindings
  -- inside a list the ports are a container
  have hInside := hContainer portsByName (.list knownPorts) rfl rfl
  refine ⟨⟨rfl, rfl⟩, hInside, ?_, (hError _ _).mpr (.inr ⟨[.long 80], _, _, rfl, ?_, hInside⟩)⟩
  · rw [hAppend]
    rfl
  · exact List.forall_mem_singleton.mpr ⟨_, rfl⟩

end TypedConfig.Deferred
