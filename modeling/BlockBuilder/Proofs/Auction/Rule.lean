import BlockBuilder.Lane.Auction
import BlockBuilder.Proofs.Auction.Conditions
import BlockBuilder.Proofs.Lane.Replay

namespace BlockBuilder

variable {C T : Type}

namespace SealedTx

variable {codec : Codec T} {sealedTx : SealedTx T}

theorem ofParts_eq_iff {tx : T} {bytes : Bytes} :
    ofParts tx bytes = sealedTx ↔ sealedTx.tx = tx ∧ sealedTx.bytes = bytes := by
  obtain ⟨_, bytes', _, rfl⟩ := sealedTx
  simp only [ofParts, mk.injEq]
  grind

theorem encode_eq_ok_iff {tx : T} :
    encode codec tx = .ok sealedTx ↔ sealedTx.tx = tx ∧ codec.encode tx = .ok sealedTx.bytes := by
  simp only [encode, map_eq_ok_iff, ofParts_eq_iff]
  grind

theorem decode_eq_ok_iff {bytes : Bytes} :
    decode codec bytes = .ok sealedTx ↔
      sealedTx.bytes = bytes ∧ codec.decode bytes = .ok sealedTx.tx := by
  simp only [decode, map_eq_ok_iff, ofParts_eq_iff]
  grind

end SealedTx

variable [Transaction T]

structure Reseals (codec : Codec T) (entry : Bytes) (sealedTx : SealedTx T) : Prop where
  reads : codec.decode entry = .ok sealedTx.tx
  noBid : Transaction.isBid sealedTx.tx = false
  writes : codec.encode sealedTx.tx = .ok sealedTx.bytes

theorem exists_reseals_of_mem {codec : Codec T} {entries : List Bytes} {bundle : List (SealedTx T)}
    (resealed : List.Forall₂ (Reseals codec) entries bundle) {sealedTx : SealedTx T}
    (mem : sealedTx ∈ bundle) : ∃ entry ∈ entries, Reseals codec entry sealedTx := by
  induction resealed with
  | nil => cases mem
  | @cons entry _ _ _ reseals _ ih =>
    rcases List.mem_cons.mp mem with rfl | mem
    · exact ⟨entry, List.mem_cons_self, reseals⟩
    · obtain ⟨other, listed, reseals⟩ := ih mem
      exact ⟨other, List.mem_cons_of_mem _ listed, reseals⟩

namespace AuctionLane

variable {lane : AuctionLane C T} {state after : C}

theorem bidOf_eq_ok_iff {bidTx : SealedTx T} {bid : Bid} :
    lane.bidOf bidTx = .ok bid ↔ Bid.ofTx? lane.settings.codec bidTx.tx = .ok (some bid) := by
  unfold bidOf
  rcases Bid.ofTx? lane.settings.codec bidTx.tx with _ | _ | found <;> simp

theorem reseal_eq_ok_iff {codec : Codec T} (position : Nat) {entry : Bytes}
    {sealedTx : SealedTx T} :
    (∃ tx, refusal (Bid.bundledTx codec position entry) = .ok tx ∧
      (SealedTx.encode codec tx).mapError .codec = (.ok sealedTx : Except LaneError _)) ↔
      Reseals codec entry sealedTx := by
  simp only [refusal, mapError_eq_ok_iff, bundledTx_eq_ok_iff, SealedTx.encode_eq_ok_iff]
  constructor
  · rintro ⟨tx, ⟨reads, noBid⟩, rfl, writes⟩
    exact ⟨reads, noBid, writes⟩
  · rintro ⟨reads, noBid, writes⟩
    exact ⟨sealedTx.tx, ⟨reads, noBid⟩, rfl, writes⟩

theorem verifyBundle_cons_eq_ok {seen : List Digest} {position : Nat} {entry : Bytes}
    {rest : List Bytes} {bundle : List (SealedTx T)} :
    (lane.verifyBundle seen position (entry :: rest)).outcome state = (.ok bundle, after) ↔
      ∃ sealedTx others middle, bundle = sealedTx :: others ∧
        Reseals lane.settings.codec entry sealedTx ∧ sealedTx.digest ∉ seen ∧
        execute lane.settings.verifier state sealedTx.tx = .ok middle ∧
        (lane.verifyBundle (sealedTx.digest :: seen) (position + 1) rest).outcome middle =
          (.ok others, after) := by
  rw [verifyBundle]
  simp only [Run.outcome_bind_eq_ok, Run.outcome_ofExcept_eq_ok, Run.outcome_check_eq_ok,
    Run.outcome_advance_eq_ok, Run.outcome_pure_eq_ok, LaneSettings.verify_eq_ok_iff,
    ← reseal_eq_ok_iff position]
  constructor
  · rintro ⟨tx, _, ⟨read, rfl⟩, sealedTx, _, ⟨written, rfl⟩, unseen, -, middle, valid, others, _,
      verified, rfl, rfl⟩
    exact ⟨sealedTx, others, middle, rfl, ⟨tx, read, written⟩, by simpa using unseen, valid, verified⟩
  · rintro ⟨sealedTx, others, middle, rfl, ⟨tx, read, written⟩, unseen, valid, verified⟩
    exact ⟨tx, _, ⟨read, rfl⟩, sealedTx, _, ⟨written, rfl⟩, by simpa using unseen, (), middle, valid,
      others, _, verified, rfl, rfl⟩

theorem verifyBundle_eq_ok_iff {seen : List Digest} {position : Nat} {entries : List Bytes}
    {bundle : List (SealedTx T)} :
    (lane.verifyBundle seen position entries).outcome state = (.ok bundle, after) ↔
      List.Forall₂ (Reseals lane.settings.codec) entries bundle ∧
      (bundle.map SealedTx.digest).Nodup ∧ (∀ sealedTx ∈ bundle, sealedTx.digest ∉ seen) ∧
      replay lane.settings.verifier state (bundle.map SealedTx.tx) = .ok after := by
  -- every digest that is passed joins those seen, so the rest has to be apart from it as well
  induction entries generalizing seen position bundle state with
  | nil =>
    rw [verifyBundle, Run.outcome_pure_eq_ok, List.forall₂_nil_left_iff]
    constructor
    · rintro ⟨rfl, rfl⟩
      simp
    · rintro ⟨rfl, -, -, ran⟩
      exact ⟨rfl, Except.ok.inj ran⟩
  | cons entry rest ih =>
    rw [verifyBundle_cons_eq_ok, List.forall₂_cons_left_iff]
    simp only [ih]
    constructor
    · rintro ⟨sealedTx, others, middle, rfl, reseals, unseen, valid, resealed, distinct, fresh, ran⟩
      refine ⟨⟨sealedTx, others, reseals, resealed, rfl⟩, ?_, ?_, ?_⟩
      · rw [List.map_cons, List.nodup_cons]
        refine ⟨?_, distinct⟩
        rw [List.mem_map]
        rintro ⟨other, mem, same⟩
        exact fresh other mem (same ▸ List.mem_cons_self)
      · intro other mem
        rcases List.mem_cons.mp mem with rfl | mem
        · exact unseen
        · exact fun repeated => fresh other mem (List.mem_cons_of_mem _ repeated)
      · exact replay_cons_eq_ok.mpr ⟨middle, valid, ran⟩
    · rintro ⟨⟨sealedTx, others, reseals, resealed, rfl⟩, distinct, fresh, ran⟩
      obtain ⟨middle, valid, ran⟩ := replay_cons_eq_ok.mp ran
      rw [List.map_cons, List.nodup_cons] at distinct
      refine ⟨sealedTx, others, middle, rfl, reseals, fresh _ List.mem_cons_self, valid, resealed,
        distinct.2, ?_, ran⟩
      intro other mem repeated
      rcases List.mem_cons.mp repeated with same | repeated
      · exact distinct.1 (List.mem_map.mpr ⟨other, mem, same⟩)
      · exact fresh other (List.mem_cons_of_mem _ mem) repeated

end AuctionLane

theorem priority_of_made {codec : Codec T} {tx : T} {bid : Bid}
    (made : Bid.ofTx? codec tx = .ok (some bid)) : AuctionLane.priority tx = bid.price.amount := by
  rw [AuctionLane.priority, offer?_of_made made]

variable [BlockState C]

/-- A bid that is in order in a state, with its bundle resealed and the state after both. -/
structure BidHolds (settings : LaneSettings C T) (terms : Terms) (funds : Funds C) (state : C)
    (bidTx : SealedTx T) (bid : Bid) (bundle : List (SealedTx T)) (after : C) : Prop where
  made : Bid.ofTx? settings.codec bidTx.tx = .ok (some bid)
  accepted : terms.accept funds state bid none = .ok ()
  resealed : List.Forall₂ (Reseals settings.codec) bid.bundle bundle
  distinct : ((bidTx :: bundle).map SealedTx.digest).Nodup
  valid : replay settings.verifier state ((bidTx :: bundle).map SealedTx.tx) = .ok after

inductive BidPart (settings : LaneSettings C T) (terms : Terms) (funds : Funds C) (state : C) :
    List (SealedTx T) → C → Prop
  | nothing : BidPart settings terms funds state [] state
  | bid {bidTx : SealedTx T} {bid : Bid} {bundle : List (SealedTx T)} {after : C}
      (holds : BidHolds settings terms funds state bidTx bid bundle after) :
      BidPart settings terms funds state (bidTx :: bundle) after

namespace AuctionLane

variable {lane : AuctionLane C T} {state after : C}

theorem verifyBid_eq_ok_iff {bidTx : SealedTx T} {bid : Bid} {bundle : List (SealedTx T)} :
    (lane.verifyBid bidTx).outcome state = (.ok (bid, bundle), after) ↔
      BidHolds lane.settings lane.terms lane.funds state bidTx bid bundle after := by
  rw [verifyBid]
  simp only [Run.outcome_bind_eq_ok, Run.outcome_ofExcept_eq_ok, Run.outcome_get_eq_ok,
    Run.outcome_advance_eq_ok, Run.outcome_pure_eq_ok, LaneSettings.verify_eq_ok_iff,
    verifyBundle_eq_ok_iff, refusal, mapError_eq_ok_iff, bidOf_eq_ok_iff, Prod.mk.injEq]
  constructor
  · rintro ⟨_, _, ⟨made, rfl⟩, _, _, ⟨rfl, rfl⟩, _, _, ⟨accepted, rfl⟩, _, middle, first, _, _,
      ⟨resealed, distinct, fresh, ran⟩, ⟨rfl, rfl⟩, rfl⟩
    refine ⟨made, accepted, resealed, ?_, replay_cons_eq_ok.mpr ⟨middle, first, ran⟩⟩
    rw [List.map_cons, List.nodup_cons, List.mem_map]
    refine ⟨?_, distinct⟩
    rintro ⟨other, mem, same⟩
    exact fresh other mem (List.mem_singleton.mpr same)
  · rintro ⟨made, accepted, resealed, distinct, valid⟩
    obtain ⟨middle, first, ran⟩ := replay_cons_eq_ok.mp valid
    rw [List.map_cons, List.nodup_cons, List.mem_map] at distinct
    refine ⟨bid, _, ⟨made, rfl⟩, _, _, ⟨rfl, rfl⟩, (), _, ⟨accepted, rfl⟩, (), middle, first, bundle, _,
      ⟨resealed, distinct.2, ?_, ran⟩, ⟨rfl, rfl⟩, rfl⟩
    intro other mem same
    exact distinct.1 ⟨other, mem, List.mem_singleton.mp same⟩

end AuctionLane

theorem BidHolds.isBid {settings : LaneSettings C T} {terms : Terms} {funds : Funds C} {state after : C}
    {bidTx : SealedTx T} {bid : Bid} {bundle : List (SealedTx T)}
    (holds : BidHolds settings terms funds state bidTx bid bundle after) :
    Transaction.isBid bidTx.tx = true :=
  isBid_of_made holds.made

end BlockBuilder
