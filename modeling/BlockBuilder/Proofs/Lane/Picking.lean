import BlockBuilder.Lane.General
import BlockBuilder.Proofs.Draft.Adding
import BlockBuilder.Proofs.Lane.Replay

namespace BlockBuilder.GeneralLane

variable {C T : Type} {lane : GeneralLane C T} {draft : Draft} {limit size : Nat} {state after : C}
  {sealedTx : SealedTx T} {pending rest chosen : List (SealedTx T)}

/-- At a size and in a state, the lane does not accept the transaction, or it has yet to be included,
would fit and is not valid. -/
def Drops (lane : GeneralLane C T) (draft : Draft) (limit size : Nat) (state : C)
    (sealedTx : SealedTx T) : Prop :=
  lane.accepts state sealedTx.tx = false ∨
    draft.contains sealedTx.digest = false ∧ addCapped size sealedTx.size ≤ limit ∧
      ∃ cause, execute lane.settings.verifier state sealedTx.tx = .error cause

theorem verify_eq_error {cause : String}
    (invalid : execute lane.settings.verifier state sealedTx.tx = .error cause) :
    ∃ refusal, lane.settings.verify state sealedTx.tx false = .error refusal := by
  cases verified : lane.settings.verify state sealedTx.tx false with
  | error refusal => exact ⟨refusal, rfl⟩
  | ok next =>
    rw [LaneSettings.verify_eq_ok_iff, invalid] at verified
    cases verified

theorem pick_cons_of_drops (drops : lane.Drops draft limit size state sealedTx) :
    lane.pick draft limit (sealedTx :: rest) size state =
      (lane.pick draft limit rest size state).bury sealedTx := by
  rw [pick]
  rcases drops with refused | ⟨new, small, cause, invalid⟩
  · simp [refused]
  · obtain ⟨refusal, verified⟩ := verify_eq_error invalid
    cases accepted : lane.accepts state sealedTx.tx with
    | false => simp
    | true => simp [new, Nat.not_lt.mpr small, verified]

theorem pick_cons_of_known (accepted : lane.accepts state sealedTx.tx = true)
    (known : draft.contains sealedTx.digest = true) :
    lane.pick draft limit (sealedTx :: rest) size state = lane.pick draft limit rest size state := by
  simp [pick, accepted, known]

theorem pick_cons_of_large (accepted : lane.accepts state sealedTx.tx = true)
    (new : draft.contains sealedTx.digest = false) (large : limit < addCapped size sealedTx.size) :
    lane.pick draft limit (sealedTx :: rest) size state = ⟨[], [], state⟩ := by
  simp [pick, accepted, new, large]

theorem pick_cons_of_valid {next : C} (accepted : lane.accepts state sealedTx.tx = true)
    (new : draft.contains sealedTx.digest = false) (small : addCapped size sealedTx.size ≤ limit)
    (valid : execute lane.settings.verifier state sealedTx.tx = .ok next) :
    lane.pick draft limit (sealedTx :: rest) size state =
      (lane.pick draft limit rest (addCapped size sealedTx.size) next).choose sealedTx := by
  simp [pick, accepted, new, Nat.not_lt.mpr small, LaneSettings.verify_eq_ok_iff.mpr valid]

inductive Turn (lane : GeneralLane C T) (draft : Draft) (limit size : Nat) (state : C)
    (sealedTx : SealedTx T) : Prop
  | drops (drops : lane.Drops draft limit size state sealedTx)
  | known (accepted : lane.accepts state sealedTx.tx = true)
      (known : draft.contains sealedTx.digest = true)
  | large (accepted : lane.accepts state sealedTx.tx = true)
      (new : draft.contains sealedTx.digest = false) (large : limit < addCapped size sealedTx.size)
  | takes (next : C) (accepted : lane.accepts state sealedTx.tx = true)
      (new : draft.contains sealedTx.digest = false) (small : addCapped size sealedTx.size ≤ limit)
      (valid : execute lane.settings.verifier state sealedTx.tx = .ok next)

theorem turn (lane : GeneralLane C T) (draft : Draft) (limit size : Nat) (state : C)
    (sealedTx : SealedTx T) : lane.Turn draft limit size state sealedTx := by
  cases accepted : lane.accepts state sealedTx.tx with
  | false => exact .drops (.inl accepted)
  | true =>
    cases known : draft.contains sealedTx.digest with
    | true => exact .known accepted known
    | false =>
      by_cases small : addCapped size sealedTx.size ≤ limit
      · cases valid : execute lane.settings.verifier state sealedTx.tx with
        | error cause => exact .drops (.inr ⟨known, small, cause, valid⟩)
        | ok next => exact .takes next accepted known small valid
      · exact .large accepted known (Nat.not_le.mp small)

inductive Picked (lane : GeneralLane C T) (draft : Draft) (limit : Nat) :
    List (SealedTx T) → Nat → C → List (SealedTx T) → C → Prop
  | stop {pending : List (SealedTx T)} {size : Nat} {state : C} :
      Picked lane draft limit pending size state [] state
  | pass {sealedTx : SealedTx T} {rest chosen : List (SealedTx T)} {size : Nat} {state after : C}
      (later : Picked lane draft limit rest size state chosen after) :
      Picked lane draft limit (sealedTx :: rest) size state chosen after
  | take {sealedTx : SealedTx T} {rest chosen : List (SealedTx T)} {size : Nat} {state next after : C}
      (accepted : lane.accepts state sealedTx.tx = true)
      (new : draft.contains sealedTx.digest = false) (small : addCapped size sealedTx.size ≤ limit)
      (valid : execute lane.settings.verifier state sealedTx.tx = .ok next)
      (later : Picked lane draft limit rest (addCapped size sealedTx.size) next chosen after) :
      Picked lane draft limit (sealedTx :: rest) size state (sealedTx :: chosen) after

theorem picked_pick (lane : GeneralLane C T) (draft : Draft) (limit : Nat)
    (pending : List (SealedTx T)) (size : Nat) (state : C) :
    lane.Picked draft limit pending size state (lane.pick draft limit pending size state).chosen
      (lane.pick draft limit pending size state).state := by
  induction pending generalizing size state with
  | nil => exact .stop
  | cons sealedTx rest ih =>
    cases lane.turn draft limit size state sealedTx with
    | drops drops =>
      rw [pick_cons_of_drops drops]
      exact (ih size state).pass
    | known accepted known =>
      rw [pick_cons_of_known accepted known]
      exact (ih size state).pass
    | large accepted new large =>
      rw [pick_cons_of_large accepted new large]
      exact .stop
    | takes next accepted new small valid =>
      rw [pick_cons_of_valid accepted new small valid]
      exact .take accepted new small valid (ih _ next)

theorem chosen_pick_append {others : List (SealedTx T)}
    (foreign : ∀ state, ∀ sealedTx ∈ others, lane.accepts state sealedTx.tx = false) :
    (lane.pick draft limit (others ++ pending) size state).chosen =
      (lane.pick draft limit pending size state).chosen := by
  induction others with
  | nil => rfl
  | cons sealedTx rest ih =>
    have refused (state : C) := List.forall_mem_cons.mp (foreign state)
    rw [List.cons_append, pick_cons_of_drops (.inl (refused state).1)]
    exact ih fun state => (refused state).2

theorem pick_eq_of_valid (accepted : ∀ state, ∀ sealedTx ∈ pending, lane.accepts state sealedTx.tx = true)
    (new : ∀ sealedTx ∈ pending, draft.contains sealedTx.digest = false)
    (small : size + totalSize pending ≤ limit)
    (valid : replay lane.settings.verifier state (pending.map SealedTx.tx) = .ok after) :
    lane.pick draft limit pending size state = ⟨pending, [], after⟩ := by
  induction pending generalizing size state with
  | nil =>
    cases valid
    rfl
  | cons sealedTx rest ih =>
    obtain ⟨next, first, ran⟩ := replay_cons_eq_ok.mp valid
    have accepted' (state : C) := List.forall_mem_cons.mp (accepted state)
    obtain ⟨own, later⟩ := List.forall_mem_cons.mp new
    rw [totalSize_cons] at small
    have grown : addCapped size sealedTx.size ≤ size + sealedTx.size := Nat.min_le_left ..
    rw [pick_cons_of_valid (accepted' state).1 own (by omega) first,
      ih (fun state => (accepted' state).2) later (by omega) ran]
    rfl

theorem Picked.sublist (picked : lane.Picked draft limit pending size state chosen after) :
    chosen.Sublist pending := by
  induction picked with
  | stop => exact List.nil_sublist _
  | pass _ ih => exact ih.cons _
  | take _ _ _ _ _ ih => exact ih.cons_cons _

theorem Picked.new (picked : lane.Picked draft limit pending size state chosen after) :
    ∀ sealedTx ∈ chosen, draft.contains sealedTx.digest = false := by
  induction picked with
  | stop => simp
  | pass _ ih => exact ih
  | take _ new _ _ _ ih => exact List.forall_mem_cons.mpr ⟨new, ih⟩

theorem Picked.foldl_le (picked : lane.Picked draft limit pending size state chosen after)
    (within : size ≤ limit) :
    chosen.foldl (fun size sealedTx => addCapped size sealedTx.size) size ≤ limit := by
  induction picked with
  | stop => exact within
  | pass _ ih => exact ih within
  | take _ _ small _ _ ih => exact ih small

theorem bytesOf_pick_le : Draft.bytesOf (lane.pick draft limit pending 0 state).chosen ≤ limit :=
  (picked_pick lane draft limit pending 0 state).foldl_le (Nat.zero_le limit)

theorem pick_prefix_of_le {higher : Nat} (more : limit ≤ higher) (size : Nat) :
    (lane.pick draft limit pending size state).chosen <+:
      (lane.pick draft higher pending size state).chosen := by
  induction pending generalizing size state with
  | nil => exact List.prefix_rfl
  | cons sealedTx rest ih =>
    rw [pick, pick]
    split
    · exact ih size
    · split
      · exact ih size
      · dsimp only
        split
        · exact List.nil_prefix
        · rename_i small
          rw [if_neg (by omega)]
          split
          · exact ih size
          · exact (List.prefix_cons_inj sealedTx).mpr (ih _)

def picks (lane : GeneralLane C T) (draft : Draft) (state : C) : Picks C T :=
  lane.pick draft (draft.allowance lane.settings.limits.share) lane.pool.select.1 0 state

theorem picked_picks (lane : GeneralLane C T) (draft : Draft) (state : C) :
    lane.Picked draft (draft.allowance lane.settings.limits.share) lane.pool.select.1 0 state
      (lane.picks draft state).chosen (lane.picks draft state).state :=
  picked_pick ..

theorem picks_within : Draft.bytesOf (lane.picks draft state).chosen ≤
    draft.allowance lane.settings.limits.share :=
  bytesOf_pick_le

end BlockBuilder.GeneralLane
