import BlockBuilder.Lane.Basic

namespace BlockBuilder

section Results

variable {ε δ α β : Type}

theorem bind_eq_ok_iff {result : Except ε α} {next : α → Except ε β} {value : β} :
    (result >>= next) = .ok value ↔ ∃ first, result = .ok first ∧ next first = .ok value := by
  cases result with
  | error cause => simp [bind, Except.bind]
  | ok first => simp [bind, Except.bind]

theorem bind_eq_error_iff {result : Except ε α} {next : α → Except ε β} {cause : ε} :
    (result >>= next) = .error cause ↔
      result = .error cause ∨ ∃ first, result = .ok first ∧ next first = .error cause := by
  cases result with
  | error other => simp [bind, Except.bind]
  | ok first => simp [bind, Except.bind]

theorem map_eq_ok_iff {result : Except ε α} {change : α → β} {value : β} :
    result.map change = .ok value ↔ ∃ first, result = .ok first ∧ change first = value := by
  cases result with
  | error cause => simp [Except.map]
  | ok first => simp [Except.map]

theorem mapError_ok {wrap : ε → δ} (value : α) :
    (.ok value : Except ε α).mapError wrap = .ok value := rfl

theorem mapError_eq_ok_iff {result : Except ε α} {wrap : ε → δ} {value : α} :
    result.mapError wrap = .ok value ↔ result = .ok value := by
  cases result with
  | error cause =>
    constructor
    · intro same
      cases same
    · intro same
      cases same
  | ok first => rw [mapError_ok, Except.ok.injEq, Except.ok.injEq]

theorem throwIf_eq_ok_iff {failed : Prop} [Decidable failed] {cause : ε}
    {skipped : α → Except ε β} {next : Except ε β} {value : β} :
    (if failed then throw cause >>= skipped else next) = .ok value ↔ ¬failed ∧ next = .ok value := by
  by_cases fails : failed
  · simp [fails, throw, throwThe, MonadExceptOf.throw, bind, Except.bind]
  · simp [fails]

theorem throwUnless_eq_ok_iff {passed : Prop} [Decidable passed] {cause : ε}
    {skipped : α → Except ε β} {next : Except ε β} {value : β} :
    (if passed then next else throw cause >>= skipped) = .ok value ↔ passed ∧ next = .ok value := by
  by_cases passes : passed
  · simp [passes]
  · simp [passes, throw, throwThe, MonadExceptOf.throw, bind, Except.bind]

theorem throwIf_eq_error_iff {failed : Prop} [Decidable failed] {cause other : ε}
    {skipped : α → Except ε β} {next : Except ε β} :
    (if failed then throw cause >>= skipped else next) = .error other ↔
      failed ∧ cause = other ∨ ¬failed ∧ next = .error other := by
  by_cases fails : failed
  · simp [fails, throw, throwThe, MonadExceptOf.throw, bind, Except.bind]
  · simp [fails]

theorem throwUnless_eq_error_iff {passed : Prop} [Decidable passed] {cause other : ε}
    {skipped : α → Except ε β} {next : Except ε β} :
    (if passed then next else throw cause >>= skipped) = .error other ↔
      ¬passed ∧ cause = other ∨ passed ∧ next = .error other := by
  by_cases passes : passed
  · simp [passes]
  · simp [passes, throw, throwThe, MonadExceptOf.throw, bind, Except.bind]

end Results

namespace Run

variable {C α β : Type} {state after : C}

theorem outcome_bind_eq_ok {run : Run C α} {next : α → Run C β} {value : β} :
    outcome (run >>= next) state = (.ok value, after) ↔
      ∃ first middle, outcome run state = (.ok first, middle) ∧
        outcome (next first) middle = (.ok value, after) := by
  rw [outcome_bind]
  rcases outcome run state with ⟨_ | first, middle⟩
  · simp
  · constructor
    · exact fun ended => ⟨first, middle, rfl, ended⟩
    · rintro ⟨_, _, same, ended⟩
      cases same
      exact ended

theorem outcome_pure_eq_ok {first value : α} :
    outcome (pure first : Run C α) state = (.ok value, after) ↔ first = value ∧ state = after := by
  rw [outcome_pure, Prod.mk.injEq, Except.ok.injEq]

theorem outcome_ofExcept_eq_ok {result : Except LaneError α} {value : α} :
    outcome (ofExcept result) state = (.ok value, after) ↔
      result = .ok value ∧ state = after := by
  rw [outcome_ofExcept, Prod.mk.injEq]

theorem outcome_get_eq_ok {found : C} :
    outcome (get : Run C C) state = (.ok found, after) ↔ state = found ∧ state = after := by
  rw [outcome_get, Prod.mk.injEq, Except.ok.injEq]

theorem outcome_advance_eq_ok {step : C → Except LaneError C} {done : Unit} :
    outcome (advance step) state = (.ok done, after) ↔ step state = .ok after := by
  rw [outcome_advance]
  cases step state <;> simp

theorem outcome_check_eq_ok {failed : Prop} [Decidable failed] {cause : LaneError}
    {skipped : β → Run C α} {next : Run C α} {value : α} :
    outcome (if failed then throw cause >>= skipped else next) state = (.ok value, after) ↔
      ¬failed ∧ outcome next state = (.ok value, after) := by
  split <;> simp [*]

end Run

end BlockBuilder
