import BlockBuilder.Proofs.Builder.HighestBid

namespace BlockBuilder.Builder

variable {C T : Type} [Transaction T] [BlockState C] {config : Config} {codec : Codec T}
  {verifier : Verifier C T} {funds : Funds C} {builder : Builder C T}

def Sound (codec : Codec T) (terms : Terms) (position : Nat) (priority : UInt64)
    (sealedTx : SealedTx T) : Prop :=
  if position = 0 then
    ∃ offer, SoundBid codec terms sealedTx.tx offer ∧ priority = offer.price.amount
  else ∀ offer ∈ Transaction.offers sealedTx.tx, offer = none

theorem Reached.sound_of_screened (reached : Reached config codec verifier funds builder)
    {position : Nat} {priority : UInt64} {sealedTx : SealedTx T}
    (screened : builder.Screened position priority sealedTx) :
    Sound codec config.terms position priority sealedTx := by
  obtain ⟨-, admitted⟩ := reached.admitted_of_screened screened
  unfold Sound
  split
  · rename_i top
    rw [if_pos top] at admitted
    obtain ⟨bid, made, price⟩ := admitted
    obtain ⟨bytes, state, next, -, valid, -⟩ := screened
    rw [reached.settled.2] at valid
    rcases Admission.screen_eq_ok_iff.mp valid with ⟨noBid, -⟩ | ⟨_, madeToo, verified⟩
    · cases made.symm.trans noBid
    · cases made.symm.trans madeToo
      obtain ⟨accepted, -⟩ := Admission.verifyBid_eq_ok_iff.mp verified
      exact ⟨_, .of_accepted (Bid.ofTx?_eq_some_iff.mp made) accepted, price⟩
  · rename_i below
    rw [if_neg below] at admitted
    simpa [Transaction.isBid] using admitted

/-- The auction lane holds sound bids, ranked by their prices, and the general lane no bids. -/
theorem Reached.pending_sound (reached : Reached config codec verifier funds builder) :
    ∃ bids others, builder.registry.lanes = [.auction bids, .general others] ∧
      (∀ sender sequence entry, bids.pool.entry? sender sequence = some entry →
        ∃ offer, SoundBid codec config.terms entry.sealedTx.tx offer ∧
          entry.priority = offer.price.amount ∧ entry.rank sender sequence ∈ bids.pool.ranks) ∧
      ∀ sender sequence entry, others.pool.entry? sender sequence = some entry →
        ∀ offer ∈ Transaction.offers entry.sealedTx.tx, offer = none := by
  obtain ⟨bids, others, lanes, auction, general⟩ :=
    reached.lanes_of fun _ reached _ _ _ => reached.sound_of_screened
  refine ⟨_, _, lanes, ?_, fun _ _ _ found => general.of_entry found⟩
  intro sender sequence entry found
  have filled : bids.entryAt (sender, sequence) = some entry := found
  obtain ⟨offer, sound, price⟩ := auction.of_entry found
  exact ⟨offer, sound, price, auction.aligned.tracks.mem filled⟩

open HeldUp in
theorem pending_sound_of_held_up :
    let builder := HeldUp.builder [[3], [4], [5]]
    ∃ bids others sender sequence entry, builder.registry.lanes = [.auction bids, .general others] ∧
      bids.pool.entry? sender sequence = some entry ∧ entry.sealedTx = high ∧
      ∃ offer, SoundBid HeldUp.codec {} entry.sealedTx.tx offer ∧
        entry.priority = offer.price.amount ∧ entry.rank sender sequence ∈ bids.pool.ranks := by
  intro builder
  obtain ⟨pool, auction, selected⟩ := exists_lane_of_three
  obtain ⟨bids, others, lanes, sound, -⟩ := Reached.pending_sound (HeldUp.reached [[3], [4], [5]])
  have same : HeldUp.lane pool = bids := by simpa [lanes] using auction
  subst same
  have holds : pool.Holds high := .of_mem_select (selected ▸ by simp)
  obtain ⟨sender, sequence, entry, found, own⟩ := holds
  exact ⟨_, others, sender, sequence, entry, lanes, found, own, sound _ _ _ found⟩

end BlockBuilder.Builder
