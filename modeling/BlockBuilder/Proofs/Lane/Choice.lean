import BlockBuilder.Proofs.Auction.Rule
import BlockBuilder.Proofs.Draft.Adding

namespace BlockBuilder

variable {C T : Type}

theorem allowance_empty_le {share : Share} (proper : share.isProper = true) (limit : Nat) :
    (Draft.empty limit).allowance share ≤ limit := by
  simp only [Share.isProper, Bool.and_eq_true, bne_iff_ne, ne_eq, decide_eq_true_eq] at proper
  unfold Draft.allowance Share.portion
  split
  · exact Nat.sub_le ..
  · rw [if_neg proper.1]
    have within : limit * share.numerator.toNat ≤ share.denominator.toNat * limit := by
      rw [Nat.mul_comm]
      exact Nat.mul_le_mul_right limit (UInt64.le_iff_toNat_le.mp proper.2)
    exact (Nat.min_le_left ..).trans (Nat.div_le_of_le_mul within)

namespace AuctionLane

variable [Transaction T] [BlockState C] {lane : AuctionLane C T} {limit : Nat} {state : C}
  {bidTx : SealedTx T}

/-- The lane verifies the bid in the state, and the bid fits with its bundle into the lane's part of
a block. -/
def CanWin (lane : AuctionLane C T) (limit : Nat) (state : C) (bidTx : SealedTx T) : Prop :=
  ∃ bid bundle after, (lane.verifyBid bidTx).outcome state = (.ok (bid, bundle), after) ∧
    Draft.bytesOf (bidTx :: bundle) ≤ (Draft.empty limit).allowance lane.share

theorem canWin_iff : lane.CanWin limit state bidTx ↔
    (match (lane.verifyBid bidTx).outcome state with
      | (.ok (_, bundle), _) =>
        decide (Draft.bytesOf (bidTx :: bundle) ≤ (Draft.empty limit).allowance lane.share)
      | (.error _, _) => false) = true := by
  unfold CanWin
  rcases (lane.verifyBid bidTx).outcome state with ⟨_ | ⟨bid, bundle⟩, after⟩ <;> simp

instance : Decidable (lane.CanWin limit state bidTx) := decidable_of_iff _ canWin_iff.symm

def opening (lane : AuctionLane C T) (limit : Nat) (state : C) (bids : List (SealedTx T)) : Choice C :=
  lane.choose (.empty limit) ((Draft.empty limit).allowance lane.share) state bids

theorem add_of_verified {bid : Bid} {bundle : List (SealedTx T)} {after : C}
    (proper : lane.share.isProper = true)
    (verified : (lane.verifyBid bidTx).outcome state = (.ok (bid, bundle), after))
    (fits : Draft.bytesOf (bidTx :: bundle) ≤ (Draft.empty limit).allowance lane.share) :
    (Draft.empty limit).add name lane.share (bidTx :: bundle) =
      .ok ((Draft.empty limit).append name (bidTx :: bundle)) := by
  have holds := verifyBid_eq_ok_iff.mp verified
  refine (Draft.add_eq_ok_iff_of_ne_nil (List.cons_ne_nil bidTx bundle)).mpr
    ⟨⟨rfl, holds.distinct, ?_, fits, ?_⟩, rfl⟩
  · exact fun sealedTx _ => Draft.contains_empty
  · have within := fits.trans (allowance_empty_le proper limit)
    exact (Nat.min_le_left ..).trans ((Nat.zero_add _).trans_le within)

theorem opening_cons_of_verified {bid : Bid} {bundle : List (SealedTx T)} {after : C}
    (rest : List (SealedTx T)) (proper : lane.share.isProper = true)
    (verified : (lane.verifyBid bidTx).outcome state = (.ok (bid, bundle), after))
    (fits : Draft.bytesOf (bidTx :: bundle) ≤ (Draft.empty limit).allowance lane.share) :
    lane.opening limit state (bidTx :: rest) =
      ⟨[], (Draft.empty limit).append name (bidTx :: bundle), after⟩ := by
  simp [opening, choose, verified, Nat.not_lt.mpr fits, add_of_verified proper verified fits]

theorem opening_cons_of_canWin (rest : List (SealedTx T)) (proper : lane.share.isProper = true)
    (wins : lane.CanWin limit state bidTx) :
    ∃ bundle, (lane.opening limit state (bidTx :: rest)).draft =
      (Draft.empty limit).append name (bidTx :: bundle) := by
  obtain ⟨bid, bundle, after, verified, fits⟩ := wins
  exact ⟨bundle, congrArg Choice.draft (opening_cons_of_verified rest proper verified fits)⟩

def Rejects (lane : AuctionLane C T) (state : C) (bidTx : SealedTx T) : Prop :=
  ∃ cause after, (lane.verifyBid bidTx).outcome state = (.error cause, after)

theorem opening_cons_cases (rest : List (SealedTx T)) (loses : ¬lane.CanWin limit state bidTx) :
    (lane.Rejects state bidTx ∧
        lane.opening limit state (bidTx :: rest) = (lane.opening limit state rest).bury bidTx) ∨
      ¬lane.Rejects state bidTx ∧
        lane.opening limit state (bidTx :: rest) = lane.opening limit state rest := by
  rcases verified : (lane.verifyBid bidTx).outcome state with ⟨cause | ⟨bid, bundle⟩, after⟩
  · exact .inl ⟨⟨cause, after, verified⟩, by simp [opening, choose, verified]⟩
  · have large : (Draft.empty limit).allowance lane.share < Draft.bytesOf (bidTx :: bundle) :=
      Nat.not_le.mp fun fits => loses ⟨bid, bundle, after, verified, fits⟩
    refine .inr ⟨?_, by simp [opening, choose, verified, large]⟩
    rintro ⟨cause, other, rejected⟩
    cases verified.symm.trans rejected

theorem opening_cons_of_not_canWin (rest : List (SealedTx T)) (loses : ¬lane.CanWin limit state bidTx) :
    (lane.opening limit state (bidTx :: rest)).draft = (lane.opening limit state rest).draft := by
  rcases lane.opening_cons_cases rest loses with ⟨-, same⟩ | ⟨-, same⟩
  · rw [same]
    rfl
  · rw [same]

theorem exists_opening_of_verified {before : List (SealedTx T)} {bid : Bid} {bundle : List (SealedTx T)}
    {after : C} (rest : List (SealedTx T)) (proper : lane.share.isProper = true)
    (lose : ∀ bidTx ∈ before, ¬lane.CanWin limit state bidTx)
    (verified : (lane.verifyBid bidTx).outcome state = (.ok (bid, bundle), after))
    (fits : Draft.bytesOf (bidTx :: bundle) ≤ (Draft.empty limit).allowance lane.share) :
    ∃ dead, lane.opening limit state (before ++ bidTx :: rest) =
      ⟨dead, (Draft.empty limit).append name (bidTx :: bundle), after⟩ := by
  induction before with
  | nil => exact ⟨[], opening_cons_of_verified rest proper verified fits⟩
  | cons loser others ih =>
    obtain ⟨loses, lose⟩ := List.forall_mem_cons.mp lose
    obtain ⟨dead, opened⟩ := ih lose
    rw [List.cons_append]
    rcases lane.opening_cons_cases (others ++ bidTx :: rest) loses with ⟨-, same⟩ | ⟨-, same⟩
    · exact ⟨loser.digest :: dead, by rw [same, opened]; rfl⟩
    · exact ⟨dead, by rw [same, opened]⟩

theorem opening_cases (proper : lane.share.isProper = true) (limit : Nat) (state : C)
    (bids : List (SealedTx T)) :
    ((∀ bidTx ∈ bids, ¬lane.CanWin limit state bidTx) ∧
        (lane.opening limit state bids).draft.txs = []) ∨
      ∃ before winner rest bundle, bids = before ++ winner :: rest ∧
        (∀ bidTx ∈ before, ¬lane.CanWin limit state bidTx) ∧ lane.CanWin limit state winner ∧
          (lane.opening limit state bids).draft.txs = (winner :: bundle).map SealedTx.bytes := by
  induction bids with
  | nil => exact .inl ⟨by simp, rfl⟩
  | cons bidTx rest ih =>
    by_cases wins : lane.CanWin limit state bidTx
    · obtain ⟨bundle, draft⟩ := opening_cons_of_canWin rest proper wins
      exact .inr ⟨[], bidTx, rest, bundle, rfl, by simp, wins, by rw [draft]; rfl⟩
    · rw [opening_cons_of_not_canWin rest wins]
      rcases ih with ⟨lose, nothing⟩ | ⟨before, winner, rest, bundle, rfl, lose, won, txs⟩
      · exact .inl ⟨List.forall_mem_cons.mpr ⟨wins, lose⟩, nothing⟩
      · exact .inr ⟨bidTx :: before, winner, rest, bundle, rfl,
          List.forall_mem_cons.mpr ⟨wins, lose⟩, won, txs⟩

end AuctionLane

end BlockBuilder
