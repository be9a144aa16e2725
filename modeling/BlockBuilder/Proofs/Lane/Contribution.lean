import BlockBuilder.Lane.Chain
import BlockBuilder.Lane.Standard
import BlockBuilder.Proofs.Auction.Rule
import BlockBuilder.Proofs.Draft.Adding
import BlockBuilder.Proofs.Lane.Picking
import BlockBuilder.Proofs.Pool.Holding

namespace BlockBuilder

variable {C T : Type} {draft extended : Draft} {state after : C} {txs : List (SealedTx T)}

namespace AuctionLane

variable [Transaction T]

/-- What an auction lane has to offer: what it holds, and the bundles of its bids. -/
inductive Offers (lane : AuctionLane C T) (sealedTx : SealedTx T) : Prop
  | held (held : lane.pool.Holds sealedTx)
  | bundled {bidTx : SealedTx T} {bid : Bid} {entry : Bytes} (held : lane.pool.Holds bidTx)
      (made : Bid.ofTx? lane.settings.codec bidTx.tx = .ok (some bid)) (listed : entry ∈ bid.bundle)
      (reseals : Reseals lane.settings.codec entry sealedTx)

variable [BlockState C] {lane : AuctionLane C T}

inductive Gives (lane : AuctionLane C T) (state : C) : List (SealedTx T) → C → Prop
  | nothing : lane.Gives state [] state
  | bid {bidTx : SealedTx T} {bid : Bid} {bundle : List (SealedTx T)} {after : C}
      (held : lane.pool.Holds bidTx)
      (holds : BidHolds lane.settings lane.terms lane.funds state bidTx bid bundle after) :
      lane.Gives state (bidTx :: bundle) after

theorem Gives.part (gives : lane.Gives state txs after) :
    BidPart lane.settings lane.terms lane.funds state txs after := by
  cases gives with
  | nothing => exact .nothing
  | bid held holds => exact .bid holds

theorem Gives.valid (gives : lane.Gives state txs after) :
    replay lane.settings.verifier state (txs.map SealedTx.tx) = .ok after := by
  cases gives with
  | nothing => rfl
  | bid held holds => exact holds.valid

theorem Gives.offers (gives : lane.Gives state txs after) :
    ∀ sealedTx ∈ txs, lane.Offers sealedTx := by
  cases gives with
  | nothing => simp
  | bid held holds =>
    intro sealedTx mem
    rcases List.mem_cons.mp mem with rfl | mem
    · exact .held held
    · obtain ⟨entry, listed, reseals⟩ := exists_reseals_of_mem holds.resealed mem
      exact .bundled held holds.made listed reseals

theorem Gives.of_select (gives : lane.select.2.Gives state txs after) :
    lane.Gives state txs after := by
  cases gives with
  | nothing => exact .nothing
  | bid held holds => exact .bid (Pool.holds_settle_iff.mp held) holds

theorem choose_gives (draft : Draft) (limit : Nat) (state : C) {bids : List (SealedTx T)}
    (held : ∀ bidTx ∈ bids, lane.pool.Holds bidTx) :
    ∃ txs, lane.Gives state txs (lane.choose draft limit state bids).state ∧
      draft.add name lane.share txs = .ok (lane.choose draft limit state bids).draft := by
  induction bids with
  | nil => exact ⟨[], .nothing, rfl⟩
  | cons bidTx rest ih =>
    have passedOver := ih fun other mem => held other (List.mem_cons_of_mem _ mem)
    unfold choose
    split
    · exact passedOver
    · split
      · exact passedOver
      · rename_i bid bundle branch verified
        split
        · exact passedOver
        · split
          · exact passedOver
          · split
            · exact passedOver
            · rename_i extended added
              exact ⟨bidTx :: bundle, .bid (held bidTx List.mem_cons_self)
                (verifyBid_eq_ok_iff.mp verified), added⟩

theorem contribute_gives (lane : AuctionLane C T) (draft : Draft) (limit : Nat) (state : C) :
    ∃ txs extended, (lane.contribute draft limit state).result = .ok extended ∧
      lane.Gives state txs (lane.contribute draft limit state).state ∧
      draft.add name lane.share txs = .ok extended := by
  have held : ∀ bidTx ∈ lane.select.1, lane.select.2.pool.Holds bidTx := fun bidTx mem =>
    Pool.holds_settle_iff.mpr (Pool.Holds.of_mem_select mem)
  obtain ⟨txs, gives, added⟩ := choose_gives draft limit state held
  exact ⟨txs, _, rfl, gives.of_select, added⟩

end AuctionLane

namespace GeneralLane

variable {lane : GeneralLane C T}

structure Gives (lane : GeneralLane C T) (state : C) (txs : List (SealedTx T)) (after : C) : Prop where
  held : ∀ sealedTx ∈ txs, lane.pool.Holds sealedTx
  accepted : ∀ sealedTx ∈ txs, ∃ state, lane.accepts state sealedTx.tx = true
  valid : replay lane.settings.verifier state (txs.map SealedTx.tx) = .ok after

theorem Gives.nothing : lane.Gives state [] state := ⟨by simp, by simp, rfl⟩

theorem Gives.cons {sealedTx : SealedTx T} {middle : C} (held : lane.pool.Holds sealedTx)
    (accepted : lane.accepts state sealedTx.tx = true)
    (valid : execute lane.settings.verifier state sealedTx.tx = .ok middle)
    (gives : lane.Gives middle txs after) : lane.Gives state (sealedTx :: txs) after where
  held := List.forall_mem_cons.mpr ⟨held, gives.held⟩
  accepted := List.forall_mem_cons.mpr ⟨⟨state, accepted⟩, gives.accepted⟩
  valid := replay_cons_eq_ok.mpr ⟨middle, valid, gives.valid⟩

theorem Picked.gives {limit size : Nat} {pending : List (SealedTx T)}
    (picked : lane.Picked draft limit pending size state txs after)
    (held : ∀ sealedTx ∈ pending, lane.pool.Holds sealedTx) : lane.Gives state txs after := by
  induction picked with
  | stop => exact .nothing
  | pass _ ih => exact ih (List.forall_mem_cons.mp held).2
  | take accepted _ _ valid _ ih =>
    obtain ⟨first, others⟩ := List.forall_mem_cons.mp held
    exact .cons first accepted valid (ih others)

theorem contribute_gives {limit : Nat}
    (added : (lane.contribute draft limit state).result = .ok extended) :
    ∃ txs, lane.Gives state txs (lane.contribute draft limit state).state ∧
      draft.add lane.name lane.settings.limits.share txs = .ok extended := by
  have held : ∀ sealedTx ∈ lane.select.1, lane.select.2.pool.Holds sealedTx := fun sealedTx mem =>
    Pool.holds_settle_iff.mpr (Pool.Holds.of_mem_select mem)
  have gives := (picked_pick lane.select.2 draft limit lane.select.1 0 state).gives held
  exact ⟨_, ⟨fun sealedTx mem => Pool.holds_settle_iff.mp (gives.held sealedTx mem),
    gives.accepted, gives.valid⟩, added⟩

end GeneralLane

namespace StandardLane

variable [Transaction T] {lane : StandardLane C T}

def Offers : StandardLane C T → SealedTx T → Prop
  | .auction lane => lane.Offers
  | .general lane => lane.pool.Holds

variable [BlockState C]

def Gives : StandardLane C T → C → List (SealedTx T) → C → Prop
  | .auction lane => lane.Gives
  | .general lane => lane.Gives

theorem Gives.nothing : lane.Gives state [] state := by
  cases lane with
  | auction lane => exact AuctionLane.Gives.nothing
  | general lane => exact GeneralLane.Gives.nothing

theorem Gives.valid (gives : lane.Gives state txs after) :
    replay lane.settings.verifier state (txs.map SealedTx.tx) = .ok after := by
  cases lane with
  | auction lane => exact AuctionLane.Gives.valid gives
  | general lane => exact GeneralLane.Gives.valid gives

theorem Gives.offers (gives : lane.Gives state txs after) :
    ∀ sealedTx ∈ txs, lane.Offers sealedTx := by
  cases lane with
  | auction lane => exact AuctionLane.Gives.offers gives
  | general lane => exact GeneralLane.Gives.held gives

theorem contribute_gives {limit : Nat}
    (added : (lane.contribute draft limit state).result = .ok extended) :
    ∃ txs, lane.Gives state txs (lane.contribute draft limit state).state ∧
      draft.add (BlockLane.name lane) (BlockLane.share lane) txs = .ok extended := by
  cases lane with
  | auction lane =>
    obtain ⟨txs, found, result, gives, ok⟩ := lane.contribute_gives draft limit state
    cases result.symm.trans added
    exact ⟨txs, gives, ok⟩
  | general lane => exact lane.contribute_gives added

end StandardLane

end BlockBuilder
