import BlockBuilder.Lane.Error

namespace BlockBuilder

abbrev Run (C α : Type) := ExceptT LaneError (StateM C) α

namespace Run

variable {C α : Type}

def ofExcept (result : Except LaneError α) : Run C α := ExceptT.mk (pure result)

def advance (step : C → Except LaneError C) : Run C Unit := do
  let next ← ofExcept (step (← get))
  set next

def outcome (run : Run C α) (state : C) : Except LaneError α × C := ExceptT.run run state

@[simp] theorem outcome_pure (value : α) (state : C) :
    outcome (pure value : Run C α) state = (.ok value, state) := rfl

@[simp] theorem outcome_throw (error : LaneError) (state : C) :
    outcome (throw error : Run C α) state = (.error error, state) := rfl

@[simp] theorem outcome_get (state : C) :
    outcome (get : Run C C) state = (.ok state, state) := rfl

@[simp] theorem outcome_ofExcept (result : Except LaneError α) (state : C) :
    outcome (ofExcept result) state = (result, state) := rfl

theorem outcome_bind {β : Type} (run : Run C α) (next : α → Run C β) (state : C) :
    outcome (run >>= next) state =
      match outcome run state with
      | (.ok value, after) => outcome (next value) after
      | (.error error, after) => (.error error, after) := by
  have step : outcome (run >>= next) state =
      (match outcome run state with
        | (result, after) => ExceptT.bindCont next result after) := rfl
  rw [step]
  rcases outcome run state with ⟨_ | _, _⟩ <;> rfl

theorem outcome_advance (step : C → Except LaneError C) (state : C) :
    outcome (advance step) state =
      match step state with
      | .ok next => (.ok (), next)
      | .error error => (.error error, state) := by
  have unfolded : outcome (advance step) state =
      (match step state with
        | result => ExceptT.bindCont (fun next => (set next : Run C Unit)) result state) := rfl
  rw [unfolded]
  cases step state <;> rfl

end Run

end BlockBuilder
