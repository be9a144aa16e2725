import BlockBuilder.Proofs.Builder.Verdict
import BlockBuilder.Proofs.Lane.Building

namespace BlockBuilder

variable {C T : Type} [Transaction T] [BlockState C]

namespace Builder

variable {config : Config} {codec : Codec T} {verifier : Verifier C T} {funds : Funds C}
  {builder : Builder C T} {state after : C} {draft final : Draft} {limit : Nat}
  {txs top rest : List (SealedTx T)}

theorem MadeFrom.parts_of_built (made : builder.MadeFrom config codec verifier funds)
    (built : Chain.Built builder.registry.lanes draft state txs final after) :
    ∃ top rest middle extended, txs = top ++ rest ∧
      BidPart (laneSettings codec verifier config.auctionLane) config.terms funds state top middle ∧
      (∀ sealedTx ∈ rest, Transaction.isBid sealedTx.tx = false) ∧
      replay (some verifier) middle (rest.map SealedTx.tx) = .ok after ∧
      draft.add AuctionLane.name config.auctionLane.share top = .ok extended ∧
      extended.add GeneralLane.defaultName config.defaultLane.share rest = .ok final := by
  obtain ⟨bids, others, lanes⟩ := made.lanes
  rw [lanes] at built
  obtain _ | ⟨bidGives, added, built⟩ := built
  obtain _ | ⟨restGives, restAdded, built⟩ := built
  cases built
  refine ⟨_, _, _, _, by rw [List.append_nil], AuctionLane.Gives.part bidGives, ?_,
    GeneralLane.Gives.valid restGives, added, restAdded⟩
  intro sealedTx mem
  obtain ⟨accepting, accepted⟩ := GeneralLane.Gives.accepted restGives sealedTx mem
  have noBid : (generalLane config codec verifier).accepts accepting sealedTx.tx = true := accepted
  rw [generalLane_accepts_eq] at noBid
  simpa using noBid

structure Shaped (config : Config) (codec : Codec T) (limit : Nat) (top rest : List (SealedTx T)) :
    Prop where
  fits : PartsFit config limit top rest
  headed : ∀ first ∈ top.head?, Transaction.isBid first.tx = true
  bidFirst : ∀ position sealedTx, (top ++ rest)[position]? = some sealedTx →
    Transaction.isBid sealedTx.tx = true →
      position = 0 ∧ ∃ bid bundle, Bid.ofTx? codec sealedTx.tx = .ok (some bid) ∧
        List.Forall₂ (Reseals codec) bid.bundle bundle ∧ top = sealedTx :: bundle

theorem shaped_of_bidPart
    (part : BidPart (laneSettings codec verifier config.auctionLane) config.terms funds state top after)
    (noBids : ∀ sealedTx ∈ rest, Transaction.isBid sealedTx.tx = false)
    (fits : PartsFit config limit top rest) : Shaped config codec limit top rest := by
  cases part with
  | nothing =>
    refine ⟨fits, by simp, ?_⟩
    intro position sealedTx found isBid
    rw [noBids sealedTx (List.mem_of_getElem? found)] at isBid
    cases isBid
  | @bid bidTx bid bundle _ holds =>
    refine ⟨fits, by simpa using holds.isBid, ?_⟩
    intro position sealedTx found isBid
    cases position with
    | zero =>
      rw [List.cons_append, List.getElem?_cons_zero, Option.some.injEq] at found
      subst found
      exact ⟨rfl, bid, bundle, holds.made, holds.resealed, rfl⟩
    | succ position =>
      have mem : sealedTx ∈ bundle ++ rest := List.mem_of_getElem? found
      have noBid : Transaction.isBid sealedTx.tx = false := by
        rcases List.mem_append.mp mem with bundled | later
        · obtain ⟨entry, -, reseals⟩ := exists_reseals_of_mem holds.resealed bundled
          exact reseals.noBid
        · exact noBids sealedTx later
      rw [noBid] at isBid
      cases isBid

theorem sum_length_propose_le (registry : Registry (StandardLane C T)) (state : C)
    (below : limit < maxCount) : ((registry.propose state limit).1.map List.length).sum ≤ limit := by
  obtain ⟨txs, draft, ok, -⟩ := registry.built_build state limit
  rw [registry.propose_eq_of_build state limit ok]
  exact registry.sum_length_build_le state limit below ok

theorem propose_shape (made : builder.MadeFrom config codec verifier funds)
    (small : ((builder.registry.propose state limit).1.map List.length).sum ≤ maxCount) :
    ∃ top rest : List (SealedTx T),
      (builder.registry.propose state limit).1 = (top ++ rest).map SealedTx.bytes ∧
      (∀ sealedTx ∈ top ++ rest, ∃ lane ∈ builder.registry.lanes, lane.Offers sealedTx) ∧
      Shaped config codec limit top rest := by
  obtain ⟨txs, draft, ok, built⟩ := builder.registry.built_build state limit
  have block : (builder.registry.propose state limit).1 = txs.map SealedTx.bytes := by
    rw [builder.registry.propose_eq_of_build state limit ok]
    simpa [Draft.empty] using built.bytes
  obtain ⟨top, rest, middle, extended, rfl, part, noBids, valid, added⟩ := made.parts_of_built built
  rw [block, ← totalSize_eq_sum_length] at small
  have fits := (exists_add_parts_iff small).mp ⟨extended, draft, added⟩
  exact ⟨top, rest, block, built.offers, shaped_of_bidPart part noBids fits⟩

open Ledger HeldUp in
/-- A transfer was put into the auction lane, and a bid into the general lane; the block has neither. -/
theorem propose_shape_of_misplaced :
    let verifier := Rules.verifier {}
    let stray : SealedTx Tx := .ofParts (.transfer (.ofIndex 2) 5 0) [2]
    let bids := ((Pool.empty {}).place 100 (.ofIndex 1) 0 low).place 200 (.ofIndex 2) 5 stray
    let others := ((Pool.empty {}).place 4 (.ofIndex 2) 0 halfway).place 3 (.ofIndex 2) 6 paid
    let builder : Builder State Tx :=
      ⟨⟨[.auction (HeldUp.lane bids), .general (HeldUp.general others)]⟩, HeldUp.codec, verifier, {}, State.funds⟩
    let state := HeldUp.state .prepare
    (builder.registry.propose state 1000).1 = [[3], [0], [6]] ∧
    ∃ top rest : List (SealedTx Tx),
      (builder.registry.propose state 1000).1 = (top ++ rest).map SealedTx.bytes ∧
      (∀ sealedTx ∈ top ++ rest, ∃ lane ∈ builder.registry.lanes, lane.Offers sealedTx) ∧
      Shaped {} HeldUp.codec 1000 top rest := by
  intro verifier stray bids others builder state
  have made : builder.MadeFrom {} HeldUp.codec verifier State.funds := .of_bare rfl rfl rfl
  have small : ((builder.registry.propose state 1000).1.map List.length).sum ≤ 1000 :=
    sum_length_propose_le _ state (by decide)
  refine ⟨?_, propose_shape made (small.trans (by decide))⟩
  obtain ⟨bid, middle, after, verified, valid⟩ := low_verified .prepare (by decide)
  have new : paid.digest ∉ [low, bundled].map SealedTx.digest :=
    (distinct_digests [6, 3, 0] (by decide) (by decide)).notMem
  exact propose_eq [stray] [] [halfway] rfl rfl (by decide) verified rfl (by decide) valid new (by decide)

end Builder

end BlockBuilder
