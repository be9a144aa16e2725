import BlockBuilder.Proofs.Auction.Acceptance
import BlockBuilder.Proofs.Builder.Agreement
import BlockBuilder.Proofs.Builder.Submission
import BlockBuilder.Proofs.Lane.Choice
import BlockBuilder.Proofs.Lane.Pricing

/-!
# The highest bid

A builder takes the bid that comes first in the order of selection for the highest one, both when it
fills the top of a block and when it decides what a new bid has to exceed. But that order keeps every
bidder's bids in sequence, so a bid of any price can wait behind a lower one of the same bidder. What
comes first exceeds, of every bidder, some bid that the others of the bidder wait for
(`Pool.Stocked.exists_leads_of_select`); that is all that a winner is worth (`propose_outbids`) and
all that a new bid has outbid (`submit_outbids`).
-/
namespace BlockBuilder

/-! ## A builder in which a bid is held up -/

namespace HeldUp

open Ledger

def builder (submissions : List Bytes) : Builder State Tx :=
  submissions.foldl (fun builder bytes =>
      { builder with registry := (builder.rules.submit builder.registry (state .check) bytes).2 })
    (.fresh {} codec (Rules.verifier {}) State.funds)

theorem reached (submissions : List Bytes) :
    Builder.Reached {} codec (Rules.verifier {}) State.funds (builder submissions) := by
  have start : Builder.Reached {} codec (Rules.verifier {}) State.funds
      (.fresh {} codec (Rules.verifier {}) State.funds) :=
    .start (Builder.ofConfig_of_check rfl _ _ _)
  exact start.submitAll (state .check) submissions

theorem reads : ∀ sealedTx ∈ [low, high, rival, paid], codec.Reads sealedTx := by
  simp only [List.forall_mem_cons]
  exact ⟨rfl, rfl, rfl, rfl, by simp⟩

theorem exists_lanes (submissions : List Bytes) (bids others : List (SealedTx Tx))
    (listed : bids ++ others ⊆ [low, high, rival, paid])
    (order : (builder submissions).registry.lanes.map (fun lane => lane.select.1.map SealedTx.bytes) =
      [bids.map SealedTx.bytes, others.map SealedTx.bytes]) :
    ∃ top rest, (builder submissions).registry.lanes = [.auction (lane top), .general (general rest)] ∧
      top.select.1 = bids ∧ rest.select.1 = others ∧ top.Aligned ∧ rest.Aligned :=
  (reached submissions).lanes_of_bytes bids others order fun sealedTx mem => reads sealedTx (listed mem)

theorem exists_lane_of_two : ∃ pool, .auction (lane pool) ∈ (builder [[3], [4]]).registry.lanes ∧
    pool.select.1 = [low, high] := by
  obtain ⟨top, rest, lanes, selected, -⟩ :=
    exists_lanes [[3], [4]] [low, high] [] (by simp) (by decide +kernel)
  exact ⟨top, lanes ▸ List.mem_cons_self, selected⟩

theorem exists_lanes_of_three : ∃ top rest,
    (builder [[3], [4], [5]]).registry.lanes = [.auction (lane top), .general (general rest)] ∧
      top.select.1 = [rival, low, high] ∧ rest.select.1 = [] ∧ top.Aligned ∧ rest.Aligned :=
  exists_lanes _ _ _ (by simp) (by decide +kernel)

theorem exists_lane_of_three : ∃ pool, .auction (lane pool) ∈ (builder [[3], [4], [5]]).registry.lanes ∧
    pool.select.1 = [rival, low, high] := by
  obtain ⟨top, rest, lanes, selected, -⟩ := exists_lanes_of_three
  exact ⟨top, lanes ▸ List.mem_cons_self, selected⟩

theorem exists_lanes_of_four : ∃ top rest,
    (builder [[3], [4], [5], [6]]).registry.lanes = [.auction (lane top), .general (general rest)] ∧
      top.select.1 = [rival, low, high] ∧ rest.select.1 = [paid] ∧ top.Aligned ∧ rest.Aligned :=
  exists_lanes _ _ _ (by simp) (by decide +kernel)

set_option maxRecDepth 8000 in
theorem rival_verified : ∃ bid middle after,
    ((lane (.empty {})).verifyBid rival).outcome (state .prepare) =
      (.ok (bid, [.ofParts (.transfer (.ofIndex 2) 5 0) [2]]), middle) ∧
        execute (some (Rules.verifier {})) middle paid.tx = .ok after :=
  ⟨_, _, _, rfl, rfl⟩

theorem high_canWin (pool : Pool Tx UInt64) : (lane pool).CanWin 1000 (state .prepare) high :=
  (canWin_lane_iff pool high).mpr (by decide +kernel)

theorem rival_canWin (pool : Pool Tx UInt64) : (lane pool).CanWin 1000 (state .prepare) rival :=
  (canWin_lane_iff pool rival).mpr (by decide +kernel)

theorem rival_admitted : ∃ lane digest next,
    .auction lane ∈ (builder [[3], [4]]).registry.lanes ∧ lane.pool.Holds high ∧
      (∀ held, lane.pool.Holds held → held.digest ≠ sha256 rival.bytes) ∧
      ((builder [[3], [4]]).rules.submit (builder [[3], [4]]).registry (state .check) rival.bytes).1 =
        .ok (digest, next) := by
  obtain ⟨pool, auction, selected⟩ := exists_lane_of_two
  have ok : ((builder [[3], [4]]).rules.submit (builder [[3], [4]]).registry (state .check)
      rival.bytes).1.isOk = true := by
    decide +kernel
  cases admitted : ((builder [[3], [4]]).rules.submit (builder [[3], [4]]).registry (state .check)
      rival.bytes).1 with
  | error cause =>
    rw [admitted] at ok
    cases ok
  | ok result =>
    refine ⟨lane pool, result.1, result.2, auction, .of_mem_select (selected ▸ by simp), ?_, rfl⟩
    intro held holds
    have stocked := ((reached [[3], [4]]).auction auction).2.2
    have mem : held ∈ [low, high] := selected ▸ stocked.aligned.mem_select_iff.mpr holds
    have new : sha256 rival.bytes ∉ [low, high].map SealedTx.digest :=
      (distinct_digests [5, 3, 4] (by decide) (by decide)).notMem
    exact fun same => new (same ▸ List.mem_map_of_mem mem)

end HeldUp

variable {C T : Type} [Transaction T]

/-! ## The order of selection -/

variable {codec : Codec T} {pool : Pool T UInt64} {sealedTx : SealedTx T}

theorem Pool.Stocked.exists_leads_of_select (stocked : pool.Stocked (Builder.Admitted codec 0))
    {before rest : List (SealedTx T)} {first : SealedTx T}
    (split : pool.select.1 = before ++ first :: rest) (mem : sealedTx ∈ first :: rest) :
    ∃ leader, pool.Leads leader sealedTx ∧
      AuctionLane.priority leader.tx ≤ AuctionLane.priority first.tx := by
  refine stocked.exists_leads_of_prices ?_ split mem
  rintro price sealedTx ⟨-, bid, made, rfl⟩
  exact (priority_of_made made).symm

/-! ## Proposals -/

variable [BlockState C] {config : Config} {verifier : Verifier C T} {funds : Funds C}
  {builder : Builder C T} {state : C} {limit : Nat} {lane : AuctionLane C T}

theorem Registry.built_propose_of_auction {registry : Registry (StandardLane C T)}
    {others : List (StandardLane C T)} (lanes : registry.lanes = .auction lane :: others) (state : C)
    (limit : Nat) :
    ∃ txs final after,
      Chain.Built others (lane.opening limit state lane.pool.select.1).draft
        (lane.opening limit state lane.pool.select.1).state txs final after ∧
      (registry.propose state limit).1 =
        (lane.opening limit state lane.pool.select.1).draft.txs ++ txs.map SealedTx.bytes := by
  obtain ⟨txs, final, ok, built⟩ := Chain.built_buildUpTo others.length others
    (lane.opening limit state lane.pool.select.1).draft (lane.opening limit state lane.pool.select.1).state
  refine ⟨txs, final, _, built, ?_⟩
  have result : (registry.build state limit).result = .ok final := by
    rw [build, lanes, Chain.build_cons]
    simp only [StandardLane.settings, AuctionLane.contribute_opening]
    exact ok
  rw [registry.propose_eq_of_build state limit result, built.bytes]

theorem Registry.exists_propose_of_auction {registry : Registry (StandardLane C T)}
    {others : List (StandardLane C T)} (lanes : registry.lanes = .auction lane :: others) (state : C)
    (limit : Nat) :
    ∃ txs : List (SealedTx T), (∀ sealedTx ∈ txs, ∃ other ∈ others, other.Offers sealedTx) ∧
      (registry.propose state limit).1 =
        (lane.opening limit state lane.pool.select.1).draft.txs ++ txs.map SealedTx.bytes := by
  obtain ⟨txs, final, after, built, proposed⟩ := registry.built_propose_of_auction lanes state limit
  exact ⟨txs, built.offers, proposed⟩

namespace Builder

/-- Once a bid can win, the block starts with one that can, and whose price is at least that of a bid
that leads the first. -/
theorem propose_outbids (reached : Reached config codec verifier funds builder)
    (auction : .auction lane ∈ builder.registry.lanes) {rival : SealedTx T}
    (pending : lane.pool.Holds rival) (eligible : lane.CanWin limit state rival) :
    ∃ winner rest, (builder.registry.propose state limit).1 = winner.bytes :: rest ∧
      lane.pool.Holds winner ∧ lane.CanWin limit state winner ∧
      ∃ leader, lane.pool.Leads leader rival ∧
        AuctionLane.priority leader.tx ≤ AuctionLane.priority winner.tx := by
  obtain ⟨⟨others, lanes⟩, same, stocked⟩ := reached.auction auction
  have proper : lane.share.isProper = true := by
    rw [same]
    exact (Config.shares_of_check reached.settled.1).1
  have mem : rival ∈ lane.pool.select.1 := stocked.aligned.mem_select_iff.mpr pending
  obtain ⟨txs, -, proposed⟩ := Registry.exists_propose_of_auction lanes state limit
  rcases AuctionLane.opening_cases proper limit state lane.pool.select.1 with
    ⟨lose, -⟩ | ⟨before, winner, later, bundle, split, lose, wins, opened⟩
  · exact absurd eligible (lose rival mem)
  · rw [opened] at proposed
    have held : lane.pool.Holds winner :=
      .of_mem_select (split ▸ List.mem_append_right before List.mem_cons_self)
    -- the rival was not tried before the winner, or it would have won
    have behind : rival ∈ winner :: later := by
      rw [split, List.mem_append] at mem
      exact mem.resolve_left fun ahead => lose rival ahead eligible
    exact ⟨winner, _, proposed, held, wins, stocked.exists_leads_of_select split behind⟩

open Ledger HeldUp in
theorem propose_outbids_of_held_up :
    let builder := HeldUp.builder [[3], [4], [5]]
    let state := HeldUp.state .prepare
    ∃ lane, .auction lane ∈ builder.registry.lanes ∧ lane.pool.Holds high ∧
      lane.CanWin 1000 state high ∧
      ∃ winner rest, (builder.registry.propose state 1000).1 = winner.bytes :: rest ∧
        lane.pool.Holds winner ∧ lane.CanWin 1000 state winner ∧
        ∃ leader, lane.pool.Leads leader high ∧
          AuctionLane.priority leader.tx ≤ AuctionLane.priority winner.tx := by
  intro builder state
  obtain ⟨pool, auction, selected⟩ := exists_lane_of_three
  have pending : (lane pool).pool.Holds high := .of_mem_select (selected ▸ by simp)
  exact ⟨lane pool, auction, pending, high_canWin pool,
    propose_outbids (reached _) auction pending (high_canWin pool)⟩

open Ledger HeldUp in
/-- So the highest bid that can win need not be the winner. -/
theorem exists_propose_below_highest :
    let builder := HeldUp.builder [[3], [4], [5]]
    let state := HeldUp.state .prepare
    Reached {} HeldUp.codec (Rules.verifier {}) State.funds builder ∧
      ∃ lane rest, .auction lane ∈ builder.registry.lanes ∧
        (builder.registry.propose state 1000).1 = rival.bytes :: rest ∧
        lane.pool.Holds high ∧ lane.CanWin 1000 state high ∧
        AuctionLane.priority rival.tx < AuctionLane.priority high.tx := by
  intro builder state
  obtain ⟨pool, auction, selected⟩ := exists_lane_of_three
  have pending : (lane pool).pool.Holds high := .of_mem_select (selected ▸ by simp)
  obtain ⟨⟨others, lanes⟩, -⟩ := (reached _).auction auction
  obtain ⟨txs, -, proposed⟩ := Registry.exists_propose_of_auction lanes state 1000
  obtain ⟨bundle, opened⟩ := AuctionLane.opening_cons_of_canWin [low, high] rfl (rival_canWin pool)
  have start : (lane pool).pool.select.1 = [rival, low, high] := selected
  rw [start, opened] at proposed
  exact ⟨reached _, lane pool, _, auction, proposed, pending, high_canWin pool, by decide⟩

end Builder

/-! ## Submissions -/

omit [Transaction T] in
theorem Terms.outbids_of_accept {terms : Terms} {bid : Bid} {highest : Coin}
    (accepted : terms.accept funds state bid (some highest) = .ok ()) :
    highest.amount.toNat + terms.increment.amount.toNat ≤ bid.price.amount.toNat := by
  obtain ⟨-, -, -, -, increased, -⟩ := accept_eq_ok_iff.mp accepted
  exact (checkIncrement_eq_ok_iff.mp increased highest rfl).2

namespace Builder

/-- A bid that is admitted exceeds, of every bidder with a pending bid, one that leads this bid. -/
theorem submit_outbids (reached : Reached config codec verifier funds builder)
    (phase : BlockState.phase state = .check) {bytes : Bytes} {tx : T}
    (read : codec.decode bytes = .ok tx) (isBid : Transaction.isBid tx = true)
    (auction : .auction lane ∈ builder.registry.lanes)
    (new : ∀ held, lane.pool.Holds held → held.digest ≠ sha256 bytes) {digest : Digest} {next : C}
    (admitted : (builder.rules.submit builder.registry state bytes).1 = .ok (digest, next))
    {rival : SealedTx T} (pending : lane.pool.Holds rival) :
    ∃ leader, lane.pool.Leads leader rival ∧
      (AuctionLane.priority leader.tx).toNat + config.terms.increment.amount.toNat ≤
        (AuctionLane.priority tx).toNat := by
  obtain ⟨⟨others, lanes⟩, -, stocked⟩ := reached.auction auction
  obtain ⟨sealedTx, middle, decoded, -, screened, -, -⟩ :=
    Admission.submit_eq_ok_iff.mp (Prod.ext admitted rfl)
  rw [reached.settled.2] at decoded screened
  obtain ⟨rfl, found⟩ := SealedTx.decode_eq_ok_iff.mp decoded
  cases read.symm.trans found
  rcases Admission.screen_eq_ok_iff.mp (congrArg Prod.fst screened) with
    ⟨noBid, -⟩ | ⟨bid, made, verified⟩
  · rw [ofTx?_eq_none_iff.mp noBid] at isBid
    cases isBid
  obtain ⟨accepted, -⟩ := Admission.verifyBid_eq_ok_iff.mp verified
  -- some bid is pending, so there is a first one, and it is another than the new one
  have mem : rival ∈ lane.pool.select.1 := stocked.aligned.mem_select_iff.mpr pending
  obtain ⟨first, rest, split⟩ := List.exists_cons_of_ne_nil (List.ne_nil_of_mem mem)
  have held : lane.pool.Holds first := .of_mem_select (split ▸ List.mem_cons_self)
  obtain ⟨slot, priority, there⟩ := Pool.Holds.exists_held held
  obtain ⟨-, top, topMade, -⟩ := stocked.held there
  have submission : (BlockState.phase state).isSubmission = true := by rw [phase]; rfl
  have other : first.digest ≠ sealedTx.digest := by
    rw [sealedTx.digest_eq]
    exact new first held
  have highest : (Admission.topPrice ⟨codec, verifier, config.terms, funds⟩ builder.registry state
      sealedTx.digest).1 = some top.price := by
    rw [Admission.topPrice_of_auction lanes submission, split, List.head?_cons,
      Option.filter_some, if_pos (decide_eq_true other), Option.bind_some, topMade]
    rfl
  rw [highest] at accepted
  have outbids := Terms.outbids_of_accept accepted
  rw [← priority_of_made topMade, ← priority_of_made made] at outbids
  obtain ⟨leader, leads, below⟩ :=
    stocked.exists_leads_of_select (split.trans (List.nil_append _).symm) (split ▸ mem)
  refine ⟨leader, leads, le_trans ?_ outbids⟩
  exact Nat.add_le_add_right (UInt64.le_iff_toNat_le.mp below) _

open Ledger HeldUp in
theorem submit_outbids_of_held_up :
    let builder := HeldUp.builder [[3], [4]]
    let state := HeldUp.state .check
    ∃ lane digest next, .auction lane ∈ builder.registry.lanes ∧
      (∀ held, lane.pool.Holds held → held.digest ≠ sha256 [5]) ∧
      (builder.rules.submit builder.registry state [5]).1 = .ok (digest, next) ∧
      lane.pool.Holds high ∧
      ∃ leader, lane.pool.Leads leader high ∧
        (AuctionLane.priority leader.tx).toNat + 1 ≤ (AuctionLane.priority rival.tx).toNat := by
  intro builder state
  obtain ⟨lane, digest, next, auction, pending, new, admitted⟩ := rival_admitted
  exact ⟨lane, digest, next, auction, new, admitted, pending,
    submit_outbids (reached _) rfl rfl rfl auction new admitted pending⟩

open Ledger HeldUp in
/-- So a bid that is admitted need not exceed the highest pending one. -/
theorem exists_submit_below_highest :
    let builder := HeldUp.builder [[3], [4]]
    let state := HeldUp.state .check
    Reached {} HeldUp.codec (Rules.verifier {}) State.funds builder ∧
      ∃ lane digest next, .auction lane ∈ builder.registry.lanes ∧
        (∀ held, lane.pool.Holds held → held.digest ≠ sha256 rival.bytes) ∧
        (builder.rules.submit builder.registry state rival.bytes).1 = .ok (digest, next) ∧
        lane.pool.Holds high ∧ AuctionLane.priority rival.tx < AuctionLane.priority high.tx := by
  intro builder state
  obtain ⟨lane, digest, next, auction, pending, new, admitted⟩ := rival_admitted
  exact ⟨reached _, lane, digest, next, auction, new, admitted, pending, by decide⟩

end Builder

end BlockBuilder
