import Mathlib.Data.List.Nodup
import BlockBuilder.Proofs.Builder.HighestBid
import BlockBuilder.Proofs.Ledger.Execution

/-!
# From submissions to blocks

A submission is checked by other means than a bid in a block: against the highest bid, for the next
height, without resealing the bundle and without comparing digests. A bid that passes the one check
passes the other as well at the same height, for the same bundle and with the same outcome
(`BidHolds.of_submission`, `MadeFrom.verifyBid_of_submit`), as long as the codec is canonical and no
two of the byte strings involved have one digest.
-/
namespace BlockBuilder

variable {C T : Type}

def Codec.Canonical (codec : Codec T) : Prop :=
  ∀ bytes tx, codec.decode bytes = .ok tx → codec.encode tx = .ok bytes

theorem Codec.Canonical.rereads {codec : Codec T} (canonical : codec.Canonical) : codec.Rereads := by
  intro raw tx bytes read written
  cases (canonical raw tx read).symm.trans written
  exact read

def Collisionless (strings : List Bytes) : Prop :=
  ∀ first ∈ strings, ∀ second ∈ strings, sha256 first = sha256 second → first = second

theorem collisionless_of_nodup {strings : List Bytes} (distinct : (strings.map sha256).Nodup) :
    Collisionless strings :=
  fun _ mem _ mem' same => List.inj_on_of_nodup_map distinct mem mem' same

section Bundles

variable [Transaction T] {codec : Codec T} {entries : List Bytes} {txs : List T}
  {bidTx : SealedTx T} {bundle : List (SealedTx T)}

theorem exists_resealed (canonical : codec.Canonical)
    (opened : List.Forall₂ (fun entry tx => codec.decode entry = .ok tx ∧
      Transaction.isBid tx = false) entries txs) :
    ∃ bundle, List.Forall₂ (Reseals codec) entries bundle ∧
      bundle.map SealedTx.bytes = entries ∧ bundle.map SealedTx.tx = txs := by
  induction opened with
  | nil => exact ⟨[], .nil, rfl, rfl⟩
  | @cons entry tx entries txs opens _ ih =>
    obtain ⟨bundle, resealed, bytes, same⟩ := ih
    refine ⟨.ofParts tx entry :: bundle, ?_, ?_, ?_⟩
    · exact .cons ⟨opens.1, opens.2, canonical entry tx opens.1⟩ resealed
    · rw [List.map_cons, bytes]
      rfl
    · rw [List.map_cons, same]
      rfl

theorem not_mem_of_isBid (reads : codec.Reads bidTx) (isBid : Transaction.isBid bidTx.tx = true)
    (opened : List.Forall₂ (fun entry tx => codec.decode entry = .ok tx ∧
      Transaction.isBid tx = false) entries txs) : bidTx.bytes ∉ entries := by
  have others : List.Forall₂ (fun entry tx => entry ≠ bidTx.bytes ∧ codec.decode entry = .ok tx)
      entries txs := by
    refine opened.imp ?_
    rintro entry tx ⟨read, noBid⟩
    refine ⟨?_, read⟩
    rintro rfl
    cases reads.symm.trans read
    rw [noBid] at isBid
    cases isBid
  obtain ⟨differ, -⟩ := (List.forall₂_and_left ..).mp others
  exact fun listed => differ _ listed rfl

omit [Transaction T] in
theorem nodup_digests (apart : (bidTx.bytes :: entries).Nodup)
    (collisionless : Collisionless (bidTx.bytes :: entries))
    (bytes : bundle.map SealedTx.bytes = entries) :
    ((bidTx :: bundle).map SealedTx.digest).Nodup := by
  have digests : (bidTx :: bundle).map SealedTx.digest = (bidTx.bytes :: entries).map sha256 := by
    rw [← bytes, ← List.map_cons, List.map_map]
    exact List.map_congr_left fun sealedTx _ => sealedTx.digest_eq
  rw [digests]
  exact apart.map_on collisionless

end Bundles

section Bids

variable [BlockState C] {state other next : C} {terms : Terms} {funds : Funds C} {bid : Bid}
  {highest : Option Coin}

theorem targetHeight_le_of_submission (same : SameButPhase state other)
    (submission : (BlockState.phase state).isSubmission = true)
    (building : (BlockState.phase other).isSubmission = false) :
    Terms.targetHeight other ≤ Terms.targetHeight state := by
  simp only [Terms.targetHeight, submission, building, same.height, if_true, Bool.false_eq_true,
    if_false]
  split
  · rename_i below
    unfold maxCount UInt64.size at below
    rw [UInt64.le_iff_toNat_le, UInt64.toNat_add, UInt64.toNat_one]
    omega
  · exact UInt64.le_refl _

theorem accept_of_submission (ignore : funds.IgnorePhase) (same : SameButPhase state other)
    (submission : (BlockState.phase state).isSubmission = true)
    (building : (BlockState.phase other).isSubmission = false)
    (accepted : terms.accept funds state bid highest = .ok ()) :
    terms.accept funds other bid none = .ok () := by
  obtain ⟨timely, small, denom, reserve, -, payable, fair⟩ := Terms.accept_eq_ok_iff.mp accepted
  have height := targetHeight_le_of_submission same submission building
  refine Terms.accept_eq_ok_iff.mpr
    ⟨UInt64.le_trans height timely, small, denom, reserve, rfl, ?_, fair⟩
  rwa [Terms.checkFunds, ← ignore _ _ same]

variable [Transaction T] {codec : Codec T} {verifier : Verifier C T}
  {bidTx : SealedTx T} {txs : List T}

theorem BidHolds.of_submission (limits : LaneLimits) (canonical : codec.Canonical) (ignores : verifier.IgnoresPhase)
    (ignore : funds.IgnorePhase) (same : SameButPhase state other)
    (submission : (BlockState.phase state).isSubmission = true)
    (building : (BlockState.phase other).isSubmission = false) (reads : codec.Reads bidTx)
    (collisionless : Collisionless (bidTx.bytes :: bid.bundle))
    (made : Bid.ofTx? codec bidTx.tx = .ok (some bid))
    (accepted : terms.accept funds state bid highest = .ok ())
    (opened : List.Forall₂ (fun entry tx => codec.decode entry = .ok tx ∧
      Transaction.isBid tx = false) bid.bundle txs)
    (valid : replay (some verifier) state (bidTx.tx :: txs) = .ok next) :
    ∃ bundle built, BidHolds ⟨codec, some verifier, limits⟩ terms funds other bidTx bid bundle built ∧
      bundle.map SealedTx.bytes = bid.bundle ∧ SameButPhase next built := by
  obtain ⟨bundle, resealed, bytes, unsealed⟩ := exists_resealed canonical opened
  obtain ⟨built, ran, sameAfter⟩ := replay_agrees ignores same valid
  have apart : (bidTx.bytes :: bid.bundle).Nodup :=
    List.nodup_cons.mpr ⟨not_mem_of_isBid reads (isBid_of_made made) opened,
      (Bid.ofTx?_eq_some_iff.mp made).distinct⟩
  refine ⟨bundle, built, ⟨made, ?_, resealed, ?_, ?_⟩, bytes, sameAfter⟩
  · exact accept_of_submission ignore same submission building accepted
  · exact nodup_digests apart collisionless bytes
  · rwa [List.map_cons, unsealed]

end Bids

open HeldUp in
theorem HeldUp.canonical_codec : HeldUp.codec.Canonical := by
  have written : ∀ position < 9, ∀ tx ∈ txs[position]?,
      HeldUp.codec.encode tx = .ok [UInt8.ofNat position] := by
    decide
  intro bytes tx read
  simp only [HeldUp.codec] at read
  split at read
  · rename_i found
    cases read
    obtain ⟨place, rfl, listed⟩ := List.map_eq_singleton_iff.mp found
    obtain ⟨inside, -⟩ := List.getElem?_eq_some_iff.mp listed
    simpa using written place.toNat inside tx listed
  · cases read

namespace Builder

variable [Transaction T] [BlockState C] {config : Config} {codec : Codec T} {verifier : Verifier C T}
  {funds : Funds C} {builder : Builder C T} {lane : AuctionLane C T} {state other next : C}

/-- A bid that is admitted can be verified for a block at the same height: with the bundle that it was
submitted with, and with the same effect on the state. -/
theorem MadeFrom.verifyBid_of_submit (made : builder.MadeFrom config codec verifier funds)
    (auction : .auction lane ∈ builder.registry.lanes) (canonical : codec.Canonical)
    (ignores : verifier.IgnoresPhase) (ignore : funds.IgnorePhase) (same : SameButPhase state other)
    (submission : BlockState.phase state = .check ∨ BlockState.phase state = .recheck)
    (building : BlockState.phase other = .prepare ∨ BlockState.phase other = .process)
    {bytes : Bytes} {tx : T} {offer : BidOffer} (read : codec.decode bytes = .ok tx)
    (offered : Transaction.offer? tx = some offer) (collisionless : Collisionless (bytes :: offer.bundle))
    {digest : Digest} (admitted : (builder.rules.submit builder.registry state bytes).1 =
      .ok (digest, next)) :
    ∃ bid bundle built,
      (lane.verifyBid (.ofParts tx bytes)).outcome other = (.ok (bid, bundle), built) ∧
      bundle.map SealedTx.bytes = offer.bundle ∧ SameButPhase next built := by
  have submitted : (BlockState.phase state).isSubmission = true := by
    rcases submission with phase | phase <;> rw [phase] <;> rfl
  have inBlock : (BlockState.phase other).isSubmission = false := by
    rcases building with phase | phase <;> rw [phase] <;> rfl
  obtain ⟨bids, others, lanes⟩ := made.lanes
  obtain rfl : lane = { auctionLane config codec verifier funds with pool := bids } := by
    simpa [lanes] using auction
  rw [made.rules_eq] at admitted
  obtain ⟨bid, highest, txs, makes, listed, accepted, opened, valid⟩ :=
    Admission.bid_of_submit read offered admitted
  have reads : codec.Reads (.ofParts tx bytes) := read
  obtain ⟨bundle, built, holds, entries, sameAfter⟩ := BidHolds.of_submission config.auctionLane
    canonical ignores ignore same submitted inBlock reads (listed ▸ collisionless) makes accepted opened
    valid
  exact ⟨bid, bundle, built, AuctionLane.verifyBid_eq_ok_iff.mpr holds, entries.trans listed, sameAfter⟩

open Ledger HeldUp in
theorem verifyBid_of_submit_of_rival :
    let builder := HeldUp.builder [[3], [4]]
    ∃ lane digest next bid bundle built, .auction lane ∈ builder.registry.lanes ∧
      (builder.rules.submit builder.registry (HeldUp.state .check) rival.bytes).1 = .ok (digest, next) ∧
      (lane.verifyBid rival).outcome (HeldUp.state .prepare) = (.ok (bid, bundle), built) ∧
      bundle.map SealedTx.bytes = [[2]] ∧ SameButPhase next built := by
  intro builder
  obtain ⟨lane, digest, next, auction, -, -, admitted⟩ := rival_admitted
  have same : SameButPhase (HeldUp.state .check) (HeldUp.state .prepare) := ⟨rfl, rfl, rfl, fun _ => rfl⟩
  have distinct : ([rival.bytes, [2]].map sha256).Nodup := distinct_digests [5, 2] (by decide) (by decide)
  obtain ⟨bid, bundle, built, verified, entries, sameAfter⟩ :=
    (HeldUp.reached [[3], [4]]).madeFrom.verifyBid_of_submit auction canonical_codec
      Rules.verifier_ignoresPhase State.funds_ignorePhase same (.inl rfl) (.inl rfl) rfl rfl
      (collisionless_of_nodup distinct) admitted
  exact ⟨lane, digest, next, bid, bundle, built, auction, admitted, verified, entries, sameAfter⟩

end Builder

end BlockBuilder
