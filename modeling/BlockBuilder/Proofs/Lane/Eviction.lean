import BlockBuilder.Proofs.Builder.Budget
import BlockBuilder.Proofs.Pool.Eviction

namespace BlockBuilder

variable {C T : Type} {draft : Draft} {limit size : Nat} {state middle : C} {digest : Digest}
  {sealedTx : SealedTx T}

namespace AuctionLane

variable [Transaction T] [BlockState C] {lane : AuctionLane C T} {bidTx : SealedTx T}

/-- The bid is rejected, and comes before all that can win in the order of selection. -/
def Evicts (lane : AuctionLane C T) (limit : Nat) (state : C) (bidTx : SealedTx T) : Prop :=
  bidTx ∈ lane.pool.select.1.takeWhile (fun other => ¬lane.CanWin limit state other) ∧
    lane.Rejects state bidTx

theorem mem_dead_opening_iff (proper : lane.share.isProper = true) (bids : List (SealedTx T)) :
    digest ∈ (lane.opening limit state bids).dead ↔
      ∃ bidTx ∈ bids.takeWhile (fun other => ¬lane.CanWin limit state other),
        lane.Rejects state bidTx ∧ bidTx.digest = digest := by
  induction bids with
  | nil => simp [opening, choose]
  | cons bidTx rest ih =>
    by_cases wins : lane.CanWin limit state bidTx
    · rw [List.takeWhile_cons_of_neg (by simpa using wins)]
      obtain ⟨bid, bundle, after, verified, fits⟩ := wins
      simp [opening_cons_of_verified rest proper verified fits]
    · rw [List.takeWhile_cons_of_pos (by simpa using wins)]
      rcases opening_cons_cases rest wins with ⟨rejects, same⟩ | ⟨verified, same⟩
      · simp [same, Choice.bury, ih, rejects, eq_comm]
      · simp [same, ih, verified]

def Opens (lane : AuctionLane C T) (limit : Nat) (state : C) (draft : Draft) (middle : C) : Prop :=
  match lane.pool.select.1.find? fun bidTx => lane.CanWin limit state bidTx with
  | none => draft = .empty limit ∧ middle = state
  | some winner => ∃ bid bundle, (lane.verifyBid winner).outcome state = (.ok (bid, bundle), middle) ∧
      draft = (Draft.empty limit).append name (winner :: bundle)

theorem opens_opening (proper : lane.share.isProper = true) (limit : Nat) (state : C) :
    lane.Opens limit state (lane.opening limit state lane.pool.select.1).draft
      (lane.opening limit state lane.pool.select.1).state := by
  unfold Opens
  generalize lane.pool.select.1 = bids
  induction bids with
  | nil => exact ⟨rfl, rfl⟩
  | cons bidTx rest ih =>
    by_cases wins : lane.CanWin limit state bidTx
    · rw [List.find?_cons_of_pos (by simpa using wins)]
      obtain ⟨bid, bundle, after, verified, fits⟩ := wins
      rw [opening_cons_of_verified rest proper verified fits]
      exact ⟨bid, bundle, verified, rfl⟩
    · rw [List.find?_cons_of_neg (by simpa using wins)]
      rcases opening_cons_cases rest wins with ⟨-, same⟩ | ⟨-, same⟩
      · rw [same]
        exact ih
      · rw [same]
        exact ih

end AuctionLane

namespace GeneralLane

variable {lane : GeneralLane C T} {pending rest : List (SealedTx T)}

inductive Visits (lane : GeneralLane C T) (draft : Draft) (limit : Nat) :
    List (SealedTx T) → Nat → C → Nat → C → Prop
  | nil {size : Nat} {state : C} : Visits lane draft limit [] size state size state
  | drop {sealedTx : SealedTx T} {rest : List (SealedTx T)} {size last : Nat} {state middle : C}
      (drops : lane.Drops draft limit size state sealedTx)
      (later : Visits lane draft limit rest size state last middle) :
      Visits lane draft limit (sealedTx :: rest) size state last middle
  | known {sealedTx : SealedTx T} {rest : List (SealedTx T)} {size last : Nat} {state middle : C}
      (accepted : lane.accepts state sealedTx.tx = true) (known : draft.contains sealedTx.digest = true)
      (later : Visits lane draft limit rest size state last middle) :
      Visits lane draft limit (sealedTx :: rest) size state last middle
  | take {sealedTx : SealedTx T} {rest : List (SealedTx T)} {size last : Nat} {state next middle : C}
      (accepted : lane.accepts state sealedTx.tx = true)
      (new : draft.contains sealedTx.digest = false) (small : addCapped size sealedTx.size ≤ limit)
      (valid : execute lane.settings.verifier state sealedTx.tx = .ok next)
      (later : Visits lane draft limit rest (addCapped size sealedTx.size) next last middle) :
      Visits lane draft limit (sealedTx :: rest) size state last middle

/-- The lane comes to the transaction in the order of selection, and drops it. -/
def Evicts (lane : GeneralLane C T) (draft : Draft) (state : C) (sealedTx : SealedTx T) : Prop :=
  ∃ before after size middle, lane.pool.select.1 = before ++ sealedTx :: after ∧
    lane.Visits draft (draft.allowance lane.settings.limits.share) before 0 state size middle ∧
    lane.Drops draft (draft.allowance lane.settings.limits.share) size middle sealedTx

theorem contribute_lanes_eq [Transaction T] [BlockState C] :
    ((StandardLane.general lane).contribute draft (draft.allowance lane.settings.limits.share)
      state).lanes =
        .general { lane with pool := lane.pool.settle.removeAll (lane.picks draft state).dead } := by
  have own := lane.contribute_eq draft (draft.allowance lane.settings.limits.share) state
  exact congrArg (fun attempt : Attempt (GeneralLane C T) C => StandardLane.general attempt.lanes) own

theorem mem_dead_pick_iff (lane : GeneralLane C T) (draft : Draft) (limit : Nat)
    (pending : List (SealedTx T)) (size : Nat) (state : C) :
    digest ∈ (lane.pick draft limit pending size state).dead ↔
      ∃ before sealedTx after last middle, pending = before ++ sealedTx :: after ∧
        lane.Visits draft limit before size state last middle ∧
        lane.Drops draft limit last middle sealedTx ∧ sealedTx.digest = digest := by
  constructor
  · intro dead
    induction pending generalizing size state with
    | nil => cases dead
    | cons first rest ih =>
      cases lane.turn draft limit size state first with
      | drops drops =>
        rw [pick_cons_of_drops drops] at dead
        rcases List.mem_cons.mp dead with rfl | dead
        · exact ⟨[], first, rest, size, state, rfl, .nil, drops, rfl⟩
        · obtain ⟨before, sealedTx, after, last, middle, rfl, visits, found⟩ := ih size state dead
          exact ⟨first :: before, sealedTx, after, last, middle, rfl, .drop drops visits, found⟩
      | known accepted known =>
        rw [pick_cons_of_known accepted known] at dead
        obtain ⟨before, sealedTx, after, last, middle, rfl, visits, found⟩ := ih size state dead
        exact ⟨first :: before, sealedTx, after, last, middle, rfl, .known accepted known visits, found⟩
      | large accepted new large =>
        rw [pick_cons_of_large accepted new large] at dead
        cases dead
      | takes next accepted new small valid =>
        rw [pick_cons_of_valid accepted new small valid] at dead
        obtain ⟨before, sealedTx, after, last, middle, rfl, visits, found⟩ := ih _ next dead
        exact ⟨first :: before, sealedTx, after, last, middle, rfl,
          .take accepted new small valid visits, found⟩
  · rintro ⟨before, sealedTx, after, last, middle, rfl, visits, drops, rfl⟩
    induction visits with
    | nil =>
      rw [List.nil_append, pick_cons_of_drops drops]
      exact List.mem_cons_self
    | drop first _ ih =>
      rw [List.cons_append, pick_cons_of_drops first]
      exact List.mem_cons_of_mem _ (ih drops)
    | known accepted known _ ih =>
      rw [List.cons_append, pick_cons_of_known accepted known]
      exact ih drops
    | take accepted new small valid _ ih =>
      rw [List.cons_append, pick_cons_of_valid accepted new small valid]
      exact ih drops

end GeneralLane

end BlockBuilder
