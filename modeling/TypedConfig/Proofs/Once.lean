import TypedConfig.Proofs.Later

/-!
# Evaluating once

A typed read evaluates a deferred value and interprets the outcome. An outcome that is no
expression is what it is, and then it does not matter which read was asked for: a list
read of a single value is its scalar read. An environment may bind a name to another
expression, though, and then the outcome is deferred again. A scalar read takes that for
a value it cannot read. A list read goes on with the outcome as if it were an item it has
not looked at yet, and evaluates a second time.

Main results:

* `ScalarKind.coerce_eq_unreadable_iff` — only an expression is refused as one.
* `Deferred.list_eq_scalar_iff` — where the value is evaluated to a single one, list and
  scalar reads agree exactly when a second evaluation leads nowhere.
* `Deferred.alias_evaluated_twice` — a name bound to an expression keeps them apart.
-/

namespace TypedConfig

/-! ## Refusing expressions -/

namespace ScalarKind

/-- The error of reading an expression that is left after evaluation. -/
def unreadable (kind : ScalarKind) : Error :=
  .coercion kind.native "expression"

/-- What is refused by the name of an expression is one. -/
theorem isExpression_of_refused {kind : ScalarKind} {expected : String} {v : Value}
    (h : Error.coercion expected v.kind.name = kind.unreadable) : v.isExpression = true := by
  have hName : v.kind.name = "expression" := (Error.coercion.inj h).2
  cases v with
  | expression e => rfl
  | _ => exact absurd hName (by simp [Value.kind, ValueKind.name])

/-- A text that is quoted, or said to be out of range, is not taken for an expression. -/
theorem coercion_ne_unreadable {kind : ScalarKind} {expected found rest : String}
    (h : found = "'" ++ rest ∨ found = "out of range " ++ rest) :
    Error.coercion expected found ≠ kind.unreadable := by
  intro hError
  -- that refusal names the value as an expression
  have hFound : found = "expression" := (Error.coercion.inj hError).2
  -- the texts differ in their first character
  rcases h with rfl | rfl
  · have hHead := Path.head?_append (a := "'") (by decide) rest
    rw [hFound] at hHead
    exact absurd hHead (by decide)
  · have hHead := Path.head?_append (a := "out of range ") (by decide) rest
    rw [hFound] at hHead
    exact absurd hHead (by decide)

theorem truncateDouble_ne_unreadable (kind : ScalarKind) (x : Float) :
    truncateDouble x ≠ .error kind.unreadable := by
  unfold truncateDouble
  split
  · exact nofun
  · exact fun h => coercion_ne_unreadable (.inr rfl) (Except.error.inj h)

theorem coerceLongText_ne_unreadable (kind : ScalarKind) (s : String) :
    coerceLongText s ≠ .error kind.unreadable := by
  have hQuoted : singleQuoted s = "'" ++ (s ++ "'") := String.append_assoc ..
  unfold coerceLongText
  -- a text that is no number in range is refused as such, and otherwise in quotes
  split
  · split
    · exact nofun
    · exact fun h => coercion_ne_unreadable (.inr rfl) (Except.error.inj h)
  · split
    · split
      · exact truncateDouble_ne_unreadable kind _
      · exact fun h => coercion_ne_unreadable (.inl hQuoted) (Except.error.inj h)
    · exact fun h => coercion_ne_unreadable (.inl hQuoted) (Except.error.inj h)

theorem coerce_string_ne_unreadable (kind : ScalarKind) (s : String) :
    kind.coerce (.string s) ≠ .error kind.unreadable := by
  have hQuoted : singleQuoted s = "'" ++ (s ++ "'") := String.append_assoc ..
  cases kind with
  | string => exact nofun
  | long => exact coerceLongText_ne_unreadable .long (Text.trim s)
  | double =>
    show coerceDouble (.string s) ≠ _
    unfold coerceDouble
    dsimp only
    split
    · exact nofun
    · exact fun h => coercion_ne_unreadable (.inl hQuoted) (Except.error.inj h)
  | boolean =>
    show coerceBoolean (.string s) ≠ _
    unfold coerceBoolean
    dsimp only
    split
    · exact nofun
    · split
      · exact nofun
      · exact fun h => coercion_ne_unreadable (.inl hQuoted) (Except.error.inj h)

/-- A coercion refuses a value as an expression exactly when it is one. -/
theorem coerce_eq_unreadable_iff {kind : ScalarKind} {v : Value} :
    kind.coerce v = .error kind.unreadable ↔ v.isExpression = true := by
  cases v with
  -- every kind names an expression when it refuses it
  | expression e => exact iff_of_true (by cases kind <;> rfl) rfl
  | string s => exact iff_of_false (coerce_string_ne_unreadable kind s) Bool.false_ne_true
  | double x =>
    cases kind with
    -- as a whole number it is truncated or refused by its own name
    | long =>
      show coerceLong (.double x) = _ ↔ _
      unfold coerceLong
      dsimp only
      split
      · exact iff_of_false (truncateDouble_ne_unreadable .long x) Bool.false_ne_true
      · exact ⟨fun h => isExpression_of_refused (Except.error.inj h), nofun⟩
    | _ => exact iff_of_false nofun Bool.false_ne_true
  | null | bool b | long n => exact iff_of_false (by cases kind <;> exact nofun) Bool.false_ne_true
  | list items | set items | map entries =>
    -- a container is refused by its own name
    refine ⟨fun h => ?_, nofun⟩
    cases kind <;> exact isExpression_of_refused (Except.error.inj h)

end ScalarKind

/-! ## List and scalar reads -/

namespace Deferred

variable {d : Deferred} {env : Environment} {kind : ScalarKind}

/-- Evaluating the value leads nowhere: to an expression again, or to the very error of
reading one. -/
def LeadsNowhere (d : Deferred) (kind : ScalarKind) (env : Environment) (v : Value) : Prop :=
  (∃ w, d.resolve env v = .ok w ∧ w.isExpression = true) ∨
    d.resolve env v = .error kind.unreadable

/-- An expression is refused as one exactly when evaluating it leads nowhere. -/
theorem interpret_eq_unreadable_iff {v : Value} (hExpression : v.isExpression = true) :
    d.interpret kind env v = .error kind.unreadable ↔ d.LeadsNowhere kind env v := by
  rw [interpret, matching?_of_isExpression hExpression, LeadsNowhere]
  dsimp only
  cases hResolve : d.resolve env v with
  | error e => simp
  | ok w =>
    -- with the outcome at hand only the question remains whether it is one again
    have hOutcome : (∃ w', Except.ok w = (.ok w' : Outcome Value) ∧ w'.isExpression = true) ∨
        (.ok w : Outcome Value) = .error kind.unreadable ↔ w.isExpression = true := by simp
    rw [hOutcome]
    dsimp only
    cases hMatching : kind.matching? w with
    | some scalar =>
      -- what matches a kind is no expression
      refine iff_of_false (fun hError => by cases hError) fun hAgain => ?_
      rw [matching?_of_isExpression hAgain] at hMatching
      cases hMatching
    | none => exact ScalarKind.coerce_eq_unreadable_iff

/-- A value that is evaluated to a single one is read as a list of what that is read as. -/
theorem list_of_single {w : Value} (hValue : d.resolve env d.value = .ok w)
    (hSingle : w.items? = none) :
    d.list kind env = (d.interpret kind env w).map fun s => [s] := by
  rw [list, hValue]
  dsimp only
  rw [hSingle]
  cases d.interpret kind env w <;> rfl

/-- What is still an expression after evaluation is no scalar. -/
theorem scalar_of_isExpression {w : Value} (hValue : d.resolve env d.value = .ok w)
    (hAgain : w.isExpression = true) : d.scalar kind env = .error kind.unreadable := by
  have hExpression : d.value.isExpression = true := by
    cases hOther : d.value.isExpression with
    | true => rfl
    | false =>
      -- any other value is its own outcome
      rw [resolve_of_not_expression hOther] at hValue
      rw [← hOther, Except.ok.inj hValue, hAgain]
  rw [scalar, interpret_eq_unreadable_iff hExpression]
  exact .inl ⟨w, hValue, hAgain⟩

/-- **List and scalar reads of a single value.** Where the value is evaluated to no list
or set, the list read is the scalar read as a single element, with the same error if there
is one, exactly when the outcome is no expression or evaluating it again leads nowhere. -/
theorem list_eq_scalar_iff
    (hSingle : ∀ w, d.resolve env d.value = .ok w → w.items? = none) :
    d.list kind env = (d.scalar kind env).map (fun s => [s]) ↔
      ∀ w, d.resolve env d.value = .ok w → w.isExpression = true → d.LeadsNowhere kind env w := by
  cases hValue : d.resolve env d.value with
  | error e =>
    rw [list_of_resolve_error hValue, scalar, interpret_of_resolve_error hValue]
    exact iff_of_true rfl nofun
  | ok w =>
    -- there is one outcome to ask about
    have hOutcome : (∀ w', Except.ok w = (.ok w' : Outcome Value) → w'.isExpression = true →
        d.LeadsNowhere kind env w') ↔ (w.isExpression = true → d.LeadsNowhere kind env w) := by
      simp
    rw [list_of_single hValue (hSingle w hValue), hOutcome]
    cases hAgain : w.isExpression with
    | false =>
      -- the list read finds the outcome as it is, like the scalar read
      rw [interpret_resolved hValue hAgain]
      exact iff_of_true rfl nofun
    | true =>
      -- the scalar read refuses it, so the list read has to refuse it in the same way
      rw [scalar_of_isExpression hValue hAgain, ← interpret_eq_unreadable_iff hAgain]
      cases d.interpret kind env w with
      | error e => simp [Except.map]
      | ok s => simp [Except.map]

/-- A port by the name of another setting. -/
def aliasedPort : Deferred :=
  ⟨.expression ⟨"port", .variable "port"⟩, some .interpreter⟩

/-- The setting is itself an expression. -/
def aliasBindings : Environment :=
  [("port", .expression ⟨"8000 + 80", .binary .add (.literal (.long 8000)) (.literal (.long 80))⟩)]

/-- The setting is bound to a name again, so that evaluating twice is not enough. -/
def distantBindings : Environment :=
  [("port", .expression ⟨"port", .variable "port"⟩)]

theorem aliasedPort_single : ∀ w, aliasedPort.resolve distantBindings aliasedPort.value = .ok w →
    w.items? = none := by
  rintro w ⟨⟩
  rfl

/-- The reads agree where a second evaluation finds an expression once more. -/
theorem aliasedPort_reads_agree :
    (∀ w, aliasedPort.resolve distantBindings aliasedPort.value = .ok w → w.items? = none) ∧
      aliasedPort.list .long distantBindings =
        (aliasedPort.scalar .long distantBindings).map fun s => [s] := by
  refine ⟨aliasedPort_single, (list_eq_scalar_iff aliasedPort_single).mpr ?_⟩
  rintro w ⟨⟩ -
  exact .inl ⟨_, rfl, rfl⟩

/-- **A name bound to an expression is evaluated twice by a list read**, and only once by
a scalar read. -/
theorem alias_evaluated_twice :
    aliasedPort.scalar .long aliasBindings = .error (.coercion "i64" "expression") ∧
      aliasedPort.list .long aliasBindings = .ok [.long 8080] ∧
      ¬∀ (d : Deferred) (kind : ScalarKind) (env : Environment),
        (∀ w, d.resolve env d.value = .ok w → w.items? = none) →
          d.list kind env = (d.scalar kind env).map fun s => [s] := by
  have hScalar : aliasedPort.scalar .long aliasBindings = .error (.coercion "i64" "expression") :=
    rfl
  have hList : aliasedPort.list .long aliasBindings = .ok [.long 8080] := rfl
  -- the alias is a single value, and its two reads differ
  refine ⟨hScalar, hList, fun hAgree => ?_⟩
  have hSame := hAgree aliasedPort .long aliasBindings (by rintro w ⟨⟩; rfl)
  rw [hScalar, hList] at hSame
  cases hSame

end Deferred

end TypedConfig
