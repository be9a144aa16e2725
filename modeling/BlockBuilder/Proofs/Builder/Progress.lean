import BlockBuilder.Proofs.Builder.HighestBid

namespace BlockBuilder

variable {C T : Type} [Transaction T]

def StartsWithBid (codec : Codec T) (block : List Bytes) : Prop :=
  ∃ bytes rest tx, block = bytes :: rest ∧ codec.decode bytes = .ok tx ∧ Transaction.isBid tx = true

variable {codec : Codec T} {limit : Nat} {state : C} {bidTx : SealedTx T}

theorem startsWithBid_cons_iff (reads : codec.Reads bidTx) (rest : List Bytes) :
    StartsWithBid codec (bidTx.bytes :: rest) ↔ Transaction.isBid bidTx.tx = true := by
  constructor
  · rintro ⟨bytes, later, tx, same, read, isBid⟩
    obtain ⟨rfl, rfl⟩ := List.cons.inj same
    cases reads.symm.trans read
    exact isBid
  · exact fun isBid => ⟨_, _, _, rfl, reads, isBid⟩

theorem not_startsWithBid_nil : ¬StartsWithBid codec [] := by
  rintro ⟨bytes, rest, tx, same, -⟩
  cases same

variable [BlockState C] {lane : AuctionLane C T}

namespace AuctionLane

theorem CanWin.isBid (wins : lane.CanWin limit state bidTx) : Transaction.isBid bidTx.tx = true := by
  obtain ⟨bid, bundle, after, verified, -⟩ := wins
  exact (verifyBid_eq_ok_iff.mp verified).isBid

theorem exists_add_iff_of_verified (proper : lane.share.isProper = true) {bid : Bid}
    {bundle : List (SealedTx T)} {after : C}
    (verified : (lane.verifyBid bidTx).outcome state = (.ok (bid, bundle), after)) :
    (∃ extended, (Draft.empty limit).add name lane.share (bidTx :: bundle) = .ok extended) ↔
      Draft.bytesOf (bidTx :: bundle) ≤ (Draft.empty limit).allowance lane.share := by
  constructor
  · rintro ⟨extended, added⟩
    exact ((Draft.add_eq_ok_iff_of_ne_nil (List.cons_ne_nil bidTx bundle)).mp added).1.withinShare
  · exact fun fits => ⟨_, add_of_verified proper verified fits⟩

end AuctionLane

namespace Builder

variable {config : Config} {verifier : Verifier C T} {funds : Funds C} {builder : Builder C T}

def Supplied (config : Config) (codec : Codec T) (verifier : Verifier C T) (funds : Funds C)
    (builder : Builder C T) : Prop :=
  ∃ start, ofConfig config codec verifier funds = .ok start ∧
    Evolves (fun _ _ sealedTx => codec.Reads sealedTx) start.registry.lanes builder.registry.lanes

theorem Reached.supplied (reached : Reached config codec verifier funds builder) :
    builder.Supplied config codec verifier funds :=
  ⟨_, ofConfig_of_check reached.settled.1 .., reached.evolves.mono fun _ _ _ admitted => admitted.1⟩

theorem Supplied.lanes (supplied : builder.Supplied config codec verifier funds) :
    config.check = .ok () ∧ ∃ bids others, builder.registry.lanes =
        [.auction { auctionLane config codec verifier funds with pool := bids },
          .general { generalLane config codec verifier with pool := others }] ∧
      bids.Stocked (fun _ sealedTx => codec.Reads sealedTx) ∧
      others.Stocked (fun _ sealedTx => codec.Reads sealedTx) := by
  obtain ⟨start, made, evolves⟩ := supplied
  obtain ⟨checked, rfl⟩ := ofConfig_eq_ok_iff.mp made
  exact ⟨checked, exists_lanes_of_evolves checked evolves⟩

omit [BlockState C] in
theorem not_startsWithBid_of_gives {pool : Pool T UInt64} {txs : List (SealedTx T)} {after : C}
    (stocked : pool.Stocked fun _ => codec.Reads)
    (gives : GeneralLane.Gives { generalLane config codec verifier with pool } state txs after) :
    ¬StartsWithBid codec (txs.map SealedTx.bytes) := by
  cases txs with
  | nil => exact not_startsWithBid_nil
  | cons first rest =>
    obtain ⟨-, reads⟩ := stocked.of_holds (gives.held first List.mem_cons_self)
    obtain ⟨other, accepted⟩ := gives.accepted first List.mem_cons_self
    have noBid : (generalLane config codec verifier).accepts other first.tx = true := accepted
    rw [generalLane_accepts_eq] at noBid
    rw [List.map_cons, startsWithBid_cons_iff reads]
    simpa using noBid

/-- A block starts with a bid if and only if some transaction of the auction lane can win, and the
draft takes a bid that was verified if and only if it fits the lane's part of the block together with
its bundle. -/
theorem propose_startsWithBid_iff (supplied : builder.Supplied config codec verifier funds)
    (auction : .auction lane ∈ builder.registry.lanes) (state : C) (limit : Nat) :
    (StartsWithBid codec (builder.registry.propose state limit).1 ↔
        ∃ bidTx, lane.pool.Holds bidTx ∧ lane.CanWin limit state bidTx) ∧
      ∀ bidTx bid bundle after, (lane.verifyBid bidTx).outcome state = (.ok (bid, bundle), after) →
        ((∃ extended, (Draft.empty limit).add AuctionLane.name lane.share (bidTx :: bundle) =
            .ok extended) ↔
          Draft.bytesOf (bidTx :: bundle) ≤ (Draft.empty limit).allowance lane.share) ∧
        (totalSize (bidTx :: bundle) ≤ maxCount →
          (Draft.bytesOf (bidTx :: bundle) ≤ (Draft.empty limit).allowance lane.share ↔
            totalSize (bidTx :: bundle) ≤ lane.share.allowed limit 0)) := by
  obtain ⟨checked, bids, others, lanes, stocked, stocked'⟩ := supplied.lanes
  have same : lane = { auctionLane config codec verifier funds with pool := bids } := by
    simpa [lanes] using auction
  have proper : lane.share.isProper = true := by
    rw [same]
    exact (Config.shares_of_check checked).1
  subst same
  refine ⟨?_, fun bidTx bid bundle after verified =>
    ⟨AuctionLane.exists_add_iff_of_verified proper verified, fun small => ?_⟩⟩
  · obtain ⟨txs, final, after, built, proposed⟩ := Registry.built_propose_of_auction lanes state limit
    rw [proposed]
    rcases AuctionLane.opening_cases proper limit state bids.select.1 with
      ⟨lose, nothing⟩ | ⟨before, winner, later, bundle, split, lose, wins, opened⟩
    · refine iff_of_false ?_ ?_
      · rw [nothing, List.nil_append]
        cases built with
        | cons gives _ built =>
          cases built
          rw [List.append_nil]
          exact not_startsWithBid_of_gives stocked' gives
      · rintro ⟨bidTx, holds, wins⟩
        exact lose bidTx (stocked.aligned.mem_select_iff.mpr holds) wins
    · have held : bids.Holds winner :=
        .of_mem_select (split ▸ List.mem_append_right before List.mem_cons_self)
      obtain ⟨-, reads⟩ := stocked.of_holds held
      rw [opened, List.map_cons, List.cons_append, startsWithBid_cons_iff reads]
      exact iff_of_true wins.isBid ⟨winner, held, wins⟩
  · rw [Draft.bytesOf_eq_totalSize small]
    exact Draft.le_allowance_iff small

open Ledger HeldUp in
/-- A transfer of the highest priority, which has come to the auction lane although it carries no bid,
does not keep a bid of 150 out. -/
theorem propose_startsWithBid_of_intruder :
    let bids := (Pool.empty {}).run [.insert 3000 bundled, .insert 150 rival]
    let builder : Builder State Tx :=
      { fresh {} HeldUp.codec (Rules.verifier {}) State.funds with
        registry := ⟨[.auction (HeldUp.lane bids),
          .general (generalLane {} HeldUp.codec (Rules.verifier {}))]⟩ }
    let state := HeldUp.state .prepare
    builder.Supplied {} HeldUp.codec (Rules.verifier {}) State.funds ∧
      bids.select.1.map SealedTx.bytes = [bundled.bytes, rival.bytes] ∧
      ¬(HeldUp.lane bids).CanWin 1000 state bundled ∧
      StartsWithBid HeldUp.codec (builder.registry.propose state 1000).1 := by
  intro bids builder state
  have supplied : builder.Supplied {} HeldUp.codec (Rules.verifier {}) State.funds := by
    refine ⟨_, ofConfig_of_check rfl _ _ _, .change ?_⟩
    rintro priority sealedTx mem
    rcases List.mem_pair.mp mem with inserted | inserted <;> cases inserted <;> rfl
  have order : bids.select.1.map SealedTx.bytes = [bundled.bytes, rival.bytes] := by decide
  have loses : ¬(HeldUp.lane bids).CanWin 1000 state bundled :=
    fun wins => absurd ((canWin_lane_iff bids bundled).mp wins) (by decide)
  have pending : bids.Holds rival := ⟨.ofIndex 2, 0, ⟨150, none, rival⟩, rfl, rfl⟩
  have starts := (propose_startsWithBid_iff supplied List.mem_cons_self state 1000).1.mpr
    ⟨rival, pending, rival_canWin bids⟩
  exact ⟨supplied, order, loses, starts⟩

end Builder

end BlockBuilder
