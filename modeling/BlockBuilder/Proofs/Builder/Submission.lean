import BlockBuilder.Admission
import BlockBuilder.Lane.Standard
import BlockBuilder.Proofs.Auction.Rule

namespace BlockBuilder

variable {C T : Type}

namespace Admission

variable {rules : Admission C T} {state next : C}

theorem verify_eq_ok_iff {tx : T} :
    rules.verify state tx = .ok next ↔ execute (some rules.verifier) state tx = .ok next :=
  mapError_eq_ok_iff

variable [Transaction T]

theorem verifyBundle_eq_ok_iff {position : Nat} {entries : List Bytes} :
    rules.verifyBundle position entries state = .ok next ↔
      ∃ txs, List.Forall₂ (fun entry tx => rules.codec.decode entry = .ok tx ∧
        Transaction.isBid tx = false) entries txs ∧
          replay (some rules.verifier) state txs = .ok next := by
  induction entries generalizing position state with
  | nil => simp [verifyBundle, List.forall₂_nil_left_iff]
  | cons entry rest ih =>
    simp only [verifyBundle, bind_eq_ok_iff, mapError_eq_ok_iff, bundledTx_eq_ok_iff, verify_eq_ok_iff,
      ih, List.forall₂_cons_left_iff]
    constructor
    · rintro ⟨tx, read, middle, valid, txs, reads, ran⟩
      exact ⟨tx :: txs, ⟨tx, txs, read, reads, rfl⟩, replay_cons_eq_ok.mpr ⟨middle, valid, ran⟩⟩
    · rintro ⟨_, ⟨tx, txs, read, reads, rfl⟩, ran⟩
      obtain ⟨middle, valid, ran⟩ := replay_cons_eq_ok.mp ran
      exact ⟨tx, read, middle, valid, txs, reads, ran⟩

/-- The transactions that a submission executes: itself, and what the entries of its bundle stand for
if it is a bid. -/
inductive Executes (codec : Codec T) (tx : T) : List T → Prop
  | single (noBid : Transaction.isBid tx = false) : Executes codec tx [tx]
  | bid {bid : Bid} {txs : List T} (made : Bid.ofTx? codec tx = .ok (some bid))
      (reads : List.Forall₂ (fun entry tx => codec.decode entry = .ok tx) bid.bundle txs) :
      Executes codec tx (tx :: txs)

variable [BlockState C]

theorem verifyBid_eq_ok_iff {tx : T} {bid : Bid} {highest : Option Coin} :
    rules.verifyBid state tx bid highest = .ok next ↔
      rules.terms.accept rules.funds state bid highest = .ok () ∧
        ∃ txs, List.Forall₂ (fun entry tx => rules.codec.decode entry = .ok tx ∧
          Transaction.isBid tx = false) bid.bundle txs ∧
            replay (some rules.verifier) state (tx :: txs) = .ok next := by
  simp only [verifyBid, bind_eq_ok_iff, mapError_eq_ok_iff, verify_eq_ok_iff, verifyBundle_eq_ok_iff,
    replay_cons_eq_ok]
  constructor
  · rintro ⟨_, accepted, middle, valid, txs, reads, ran⟩
    exact ⟨accepted, txs, reads, middle, valid, ran⟩
  · rintro ⟨accepted, txs, reads, middle, valid, ran⟩
    exact ⟨(), accepted, middle, valid, txs, reads, ran⟩

variable {L : Type} [BlockLane L C T] {registry after : Registry L} {sealedTx : SealedTx T}

theorem screen_eq_ok_iff :
    (rules.screen registry state sealedTx).1 = .ok next ↔
      (Bid.ofTx? rules.codec sealedTx.tx = .ok none ∧
        execute (some rules.verifier) state sealedTx.tx = .ok next) ∨
      ∃ bid, Bid.ofTx? rules.codec sealedTx.tx = .ok (some bid) ∧
        rules.verifyBid state sealedTx.tx bid
          (rules.topPrice registry state sealedTx.digest).1 = .ok next := by
  unfold screen
  rcases Bid.ofTx? rules.codec sealedTx.tx with cause | _ | bid
  · simp
  · simp [verify_eq_ok_iff]
  · simp

theorem executes_of_screen (screened : (rules.screen registry state sealedTx).1 = .ok next) :
    ∃ txs, Executes rules.codec sealedTx.tx txs ∧
      replay (some rules.verifier) state txs = .ok next := by
  rcases screen_eq_ok_iff.mp screened with ⟨noBid, valid⟩ | ⟨bid, made, verified⟩
  · exact ⟨_, .single (ofTx?_eq_none_iff.mp noBid), replay_cons_eq_ok.mpr ⟨next, valid, rfl⟩⟩
  · obtain ⟨-, txs, reads, ran⟩ := verifyBid_eq_ok_iff.mp verified
    exact ⟨_, .bid made (reads.imp fun _ _ read => read.1), ran⟩

theorem submit_of_known {bytes : Bytes} (read : SealedTx.decode rules.codec bytes = .ok sealedTx)
    (known : registry.contains sealedTx.digest = true) :
    rules.submit registry state bytes =
      match rules.screen registry state sealedTx with
      | (.error cause, registry) => (.error cause, registry)
      | (.ok next, registry) => enter registry sealedTx next := by
  rw [submit, read]
  exact if_neg (by simp [known])

theorem submit_eq_ok_iff {bytes : Bytes} {digest : Digest} :
    rules.submit registry state bytes = (.ok (digest, next), after) ↔
      ∃ sealedTx middle, SealedTx.decode rules.codec bytes = .ok sealedTx ∧
        (BlockState.phase state = .recheck → registry.contains sealedTx.digest = true) ∧
        rules.screen registry state sealedTx = (.ok next, middle) ∧
        middle.insert next sealedTx = .ok after ∧ digest = sealedTx.digest := by
  constructor
  · intro done
    unfold submit at done
    split at done
    · cases done
    · rename_i sealedTx read
      split at done
      · cases done
      · rename_i known
        have pending (again : BlockState.phase state = .recheck) :
            registry.contains sealedTx.digest = true := by simpa [again] using known
        split at done
        · cases done
        · rename_i reached middle screened
          unfold enter at done
          split at done
          · cases done
          · rename_i filled inserted
            cases done
            exact ⟨sealedTx, middle, read, pending, screened, inserted, rfl⟩
  · rintro ⟨sealedTx, middle, read, pending, screened, inserted, rfl⟩
    have known : ¬(BlockState.phase state = .recheck ∧ (!registry.contains sealedTx.digest) = true) := by
      rintro ⟨again, absent⟩
      rw [pending again] at absent
      cases absent
    simp only [submit, read, if_neg known, screened, enter, inserted]

theorem bid_of_submit {bytes : Bytes} {tx : T} {offer : BidOffer} {digest : Digest}
    (read : rules.codec.decode bytes = .ok tx) (offered : Transaction.offer? tx = some offer)
    (admitted : (rules.submit registry state bytes).1 = .ok (digest, next)) :
    ∃ bid highest txs, Bid.ofTx? rules.codec tx = .ok (some bid) ∧ bid.bundle = offer.bundle ∧
      rules.terms.accept rules.funds state bid highest = .ok () ∧
      List.Forall₂ (fun entry tx => rules.codec.decode entry = .ok tx ∧
        Transaction.isBid tx = false) bid.bundle txs ∧
      replay (some rules.verifier) state (tx :: txs) = .ok next := by
  obtain ⟨sealedTx, middle, decoded, -, screened, -, -⟩ := submit_eq_ok_iff.mp (Prod.ext admitted rfl)
  obtain ⟨rfl, found⟩ := SealedTx.decode_eq_ok_iff.mp decoded
  cases read.symm.trans found
  rcases screen_eq_ok_iff.mp (congrArg Prod.fst screened) with ⟨noBid, -⟩ | ⟨bid, made, verified⟩
  · rw [ofTx?_eq_none_iff, ← isSome_offer?, offered] at noBid
    cases noBid
  · obtain ⟨accepted, txs, opened, valid⟩ := verifyBid_eq_ok_iff.mp verified
    cases offered.symm.trans (offer?_of_made made)
    exact ⟨bid, _, txs, made, rfl, accepted, opened, valid⟩

theorem topPrice_of_auction {lane : AuctionLane C T} {others : List (StandardLane C T)}
    {registry : Registry (StandardLane C T)} (lanes : registry.lanes = .auction lane :: others)
    (submission : (BlockState.phase state).isSubmission = true) (digest : Digest) :
    rules.topPrice registry state digest =
      ((lane.pool.select.1.head?.filter fun sealedTx => sealedTx.digest ≠ digest).bind fun sealedTx =>
          (Bid.ofTx? rules.codec sealedTx.tx).toOption.join.map Bid.price,
        ⟨.auction lane.select.2 :: others⟩) := by
  have named : (BlockLane.name (StandardLane.auction lane) == AuctionLane.name) = true := rfl
  simp only [topPrice, submission, if_true, Registry.lane?, lanes, List.find?_cons, named,
    Registry.replace, Registry.replaceFirst]
  rfl

end Admission

end BlockBuilder
