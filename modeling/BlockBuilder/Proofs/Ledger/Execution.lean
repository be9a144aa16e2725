import BlockBuilder.Ledger.State
import BlockBuilder.Proofs.Lane.Replay

namespace BlockBuilder.Ledger

namespace State

variable {left right : State}

theorem eq_withPhase_of_same (same : SameButPhase left right) :
    right = { left with phase := right.phase } := by
  have fields : { left with phase := right.phase } = { right with phase := right.phase } :=
    same.inPhase right.phase
  exact fields.symm

theorem same_withPhase (state : State) (before after : Phase) :
    SameButPhase { state with phase := before } { state with phase := after } :=
  ⟨rfl, rfl, rfl, fun _ => rfl⟩

theorem funds_ignorePhase : Funds.IgnorePhase State.funds := by
  intro left right same
  rw [eq_withPhase_of_same same]
  rfl

end State

namespace Rules

variable {rules : Rules} {state after : State} {tx : Tx} {sender : Address} {fee : Coin}

theorem charge_eq_ok_iff :
    charge state sender fee = .ok after ↔
      fee.isZero = true ∧ after = state ∨
        fee.isZero = false ∧ fee.amount ≤ state.balance sender fee.denom ∧
          after = state.setBalance sender ⟨fee.denom, state.balance sender fee.denom - fee.amount⟩ := by
  unfold charge
  by_cases free : fee.isZero = true
  · simp [free, eq_comm]
  · by_cases unpaid : state.balance sender fee.denom < fee.amount
    · simp [free, unpaid, UInt64.not_le.mpr unpaid]
    · simp [free, unpaid, UInt64.not_lt.mp unpaid, eq_comm]

theorem eq_of_charge (charged : charge state sender fee = .ok after) :
    after = { state with balances := after.balances } := by
  rcases charge_eq_ok_iff.mp charged with ⟨-, rfl⟩ | ⟨-, -, rfl⟩
  · rfl
  · rfl

theorem check_eq_ok_iff :
    rules.check state tx = .ok after ↔
      ∃ sender charged, tx.signers.head? = some sender ∧
        (∀ signer ∈ tx.signers, signer ∉ rules.denied) ∧
        (tx.timeout = 0 ∨ state.height ≤ tx.timeout) ∧
        (rules.strict = true → tx.sequence = state.nextSequence sender) ∧
        charge state sender tx.fee = .ok charged ∧
        after = { charged with
          sequences := charged.sequences.insert sender
            (max tx.sequence (state.nextSequence sender) + 1)
          priority := tx.fee.amount } := by
  unfold check
  cases first : tx.signers.head? with
  | none => simp
  | some sender =>
    cases denied : tx.signers.find? rules.denied.contains with
    | some signer =>
      have mem := List.mem_of_find?_eq_some denied
      have refused : signer ∈ rules.denied := by simpa using List.find?_some denied
      constructor
      · intro ran
        rw [bind_eq_ok_iff] at ran
        obtain ⟨_, thrown, _⟩ := ran
        cases thrown
      · rintro ⟨_, _, _, allowed, _⟩
        exact absurd refused (allowed signer mem)
    | none =>
      have allowed : ∀ signer ∈ tx.signers, signer ∉ rules.denied := by simpa using denied
      simp only [throwIf_eq_ok_iff, throwUnless_eq_ok_iff, bind_eq_ok_iff]
      constructor
      · rintro ⟨inTime, inSequence, charged, paid, same⟩
        cases same
        refine ⟨sender, charged, rfl, allowed, inTime, ?_, paid, rfl⟩
        intro strict
        exact Decidable.byContradiction fun mismatch => inSequence ⟨strict, mismatch⟩
      · rintro ⟨_, charged, same, -, inTime, inSequence, paid, rfl⟩
        cases same
        refine ⟨inTime, ?_, charged, paid, rfl⟩
        rintro ⟨strict, mismatch⟩
        exact mismatch (inSequence strict)

theorem charge_withPhase (phase : Phase) (charged : charge state sender fee = .ok after) :
    charge { state with phase } sender fee = .ok { after with phase } := by
  rw [charge_eq_ok_iff] at charged ⊢
  rcases charged with ⟨free, rfl⟩ | ⟨due, enough, rfl⟩
  · exact .inl ⟨free, rfl⟩
  · exact .inr ⟨due, enough, rfl⟩

theorem check_withPhase (phase : Phase) (executed : rules.check state tx = .ok after) :
    rules.check { state with phase } tx = .ok { after with phase } := by
  rw [check_eq_ok_iff] at executed ⊢
  obtain ⟨sender, charged, first, allowed, inTime, inSequence, paid, rfl⟩ := executed
  exact ⟨sender, _, first, allowed, inTime, inSequence, charge_withPhase phase paid, rfl⟩

theorem verifier_ignoresPhase : rules.verifier.IgnoresPhase := by
  intro left right tx after same ran
  have executed : rules.check left tx = .ok after := mapError_eq_ok_iff.mp ran
  refine ⟨{ after with phase := right.phase }, ?_, ?_⟩
  · apply mapError_eq_ok_iff.mpr
    rw [State.eq_withPhase_of_same same]
    exact check_withPhase right.phase executed
  · exact State.same_withPhase after after.phase right.phase

theorem eq_of_check (executed : rules.check state tx = .ok after) :
    after = { state with
      balances := after.balances, sequences := after.sequences, priority := after.priority } := by
  obtain ⟨sender, charged, -, -, -, -, paid, rfl⟩ := check_eq_ok_iff.mp executed
  rw [eq_of_charge paid]

theorem phase_of_check (executed : rules.check state tx = .ok after) : after.phase = state.phase := by
  rw [eq_of_check executed]

theorem verifier_respects_sameBlock : Respects (some rules.verifier) SameBlock := by
  intro left right tx after same ran
  have executed : rules.check left tx = .ok after := mapError_eq_ok_iff.mp ran
  obtain ⟨other, ranToo, sameAfter⟩ := verifier_ignoresPhase left right tx after same.toSameButPhase ran
  have executedToo : rules.check right tx = .ok other := mapError_eq_ok_iff.mp ranToo
  refine ⟨other, ranToo, sameAfter, ?_⟩
  show after.phase.isSubmission = other.phase.isSubmission
  rw [phase_of_check executed, phase_of_check executedToo]
  exact same.submission

theorem byteLimit_of_check (executed : rules.check state tx = .ok after) :
    after.byteLimit = state.byteLimit := by
  rw [eq_of_check executed]

end Rules

end BlockBuilder.Ledger
