import BlockBuilder.Proofs.Builder.Reached
import BlockBuilder.Proofs.Builder.Shape

namespace BlockBuilder

variable {C T : Type}

/-- A codec that reads back what it writes, for all transactions that it can read at all. -/
def Codec.Rereads (codec : Codec T) : Prop :=
  ∀ raw tx bytes, codec.decode raw = .ok tx → codec.encode tx = .ok bytes →
    codec.decode bytes = .ok tx

section States

variable [BlockState C] {left right after : C}

theorem SameBlock.targetHeight_eq (same : SameBlock left right) :
    Terms.targetHeight left = Terms.targetHeight right := by
  simp only [Terms.targetHeight, same.submission, same.height]

theorem accept_eq_of_same {terms : Terms} {funds : Funds C}
    (height : Terms.targetHeight left = Terms.targetHeight right) (same : funds left = funds right)
    (bid : Bid) (highest : Option Coin) :
    terms.accept funds left bid highest = terms.accept funds right bid highest := by
  simp only [Terms.accept, Terms.checkFunds, height, same]

variable [Transaction T] {settings : LaneSettings C T} {terms : Terms} {funds : Funds C}
  {txs : List (SealedTx T)} {relates : C → C → Prop}

theorem BidHolds.agrees {bidTx : SealedTx T} {bid : Bid} {bundle : List (SealedTx T)}
    (respects : Respects settings.verifier relates) (related : relates left right)
    (height : Terms.targetHeight left = Terms.targetHeight right) (same : funds left = funds right)
    (holds : BidHolds settings terms funds left bidTx bid bundle after) :
    ∃ other, BidHolds settings terms funds right bidTx bid bundle other ∧ relates after other := by
  obtain ⟨other, valid, relatedAfter⟩ := replay_respects respects related holds.valid
  refine ⟨other, ⟨holds.made, ?_, holds.resealed, holds.distinct, valid⟩, relatedAfter⟩
  rw [← accept_eq_of_same height same]
  exact holds.accepted

theorem BidPart.agrees (respects : Respects settings.verifier relates) (related : relates left right)
    (height : Terms.targetHeight left = Terms.targetHeight right) (same : funds left = funds right)
    (part : BidPart settings terms funds left txs after) :
    ∃ other, BidPart settings terms funds right txs other ∧ relates after other := by
  cases part with
  | nothing => exact ⟨right, .nothing, related⟩
  | bid holds =>
    obtain ⟨other, holdsToo, relatedAfter⟩ := holds.agrees respects related height same
    exact ⟨other, .bid holdsToo, relatedAfter⟩

end States

section Reading

variable {codec : Codec T} {sealedTx : SealedTx T}

theorem Registry.readBlock_map_bytes {txs : List (SealedTx T)}
    (reads : ∀ sealedTx ∈ txs, codec.Reads sealedTx) :
    readBlock codec (txs.map SealedTx.bytes) = .ok txs := by
  rw [readBlock_eq_ok_iff, List.forall₂_map_left_iff, List.forall₂_same]
  intro sealedTx mem
  exact SealedTx.decode_eq_ok_iff.mpr ⟨rfl, reads sealedTx mem⟩

theorem Registry.eq_of_map_bytes_eq {txs others : List (SealedTx T)}
    (reads : ∀ sealedTx ∈ txs, codec.Reads sealedTx) (reads' : ∀ sealedTx ∈ others, codec.Reads sealedTx)
    (same : txs.map SealedTx.bytes = others.map SealedTx.bytes) : txs = others := by
  have read := readBlock_map_bytes reads
  rw [same, readBlock_map_bytes reads'] at read
  exact (Except.ok.inj read).symm

variable [Transaction T] {lane blank : StandardLane C T}

theorem Reseals.codecReads {entry : Bytes} (rereads : codec.Rereads)
    (reseals : Reseals codec entry sealedTx) : codec.Reads sealedTx :=
  rereads entry sealedTx.tx sealedTx.bytes reseals.reads reseals.writes

theorem AuctionLane.exists_verified_of_bytes [BlockState C] {auction : AuctionLane C T} {state : C}
    {bundle : List (SealedTx T)} (rereads : auction.settings.codec.Rereads)
    (reads : ∀ sealedTx ∈ bundle, auction.settings.codec.Reads sealedTx)
    (verified : (match (auction.verifyBid sealedTx).outcome state with
      | (.ok (_, found), _) => decide (found.map SealedTx.bytes = bundle.map SealedTx.bytes)
      | (.error _, _) => false) = true) :
    ∃ bid after, (auction.verifyBid sealedTx).outcome state = (.ok (bid, bundle), after) := by
  rcases outcome : (auction.verifyBid sealedTx).outcome state with ⟨_ | ⟨bid, found⟩, after⟩
  · rw [outcome] at verified
    cases verified
  · rw [outcome] at verified
    have resealed := (verifyBid_eq_ok_iff.mp outcome).resealed
    have readable : ∀ sealedTx ∈ found, auction.settings.codec.Reads sealedTx := by
      intro sealedTx mem
      obtain ⟨entry, -, reseals⟩ := exists_reseals_of_mem resealed mem
      exact reseals.codecReads rereads
    cases Registry.eq_of_map_bytes_eq readable reads (of_decide_eq_true verified)
    exact ⟨bid, after, rfl⟩

theorem StandardLane.FilledWith.reads_of_offers (rereads : codec.Rereads)
    (filled : StandardLane.FilledWith codec.Reads blank lane) (same : lane.settings.codec = codec)
    (offers : lane.Offers sealedTx) : codec.Reads sealedTx := by
  cases lane with
  | general lane => exact filled.kept sealedTx offers
  | auction lane =>
    cases offers with
    | held held => exact filled.kept sealedTx held
    | bundled held made listed reseals =>
      have codecs : lane.settings.codec = codec := same
      rw [codecs] at reseals
      exact reseals.codecReads rereads

end Reading

namespace Builder

variable [Transaction T] [BlockState C] {config : Config} {codec : Codec T}
  {verifier : Verifier C T} {funds : Funds C} {builder judge : Builder C T} {state other : C}
  {limit : Nat}

theorem Reached.reads_of_offers (reached : Reached config codec verifier funds builder)
    (rereads : codec.Rereads) {sealedTx : SealedTx T}
    (offered : ∃ lane ∈ builder.registry.lanes, lane.Offers sealedTx) : codec.Reads sealedTx := by
  obtain ⟨bids, others, lanes⟩ := reached.madeFrom.lanes
  have filled := reached.filled
  unfold Registry.FilledWith bareLanes at filled
  rw [lanes] at filled offered
  cases filled with
  | cons auction filled =>
    cases filled with
    | cons general filled =>
      obtain ⟨lane, mem, offers⟩ := offered
      rcases List.mem_pair.mp mem with same | same
      · subst same
        exact auction.reads_of_offers rereads rfl offers
      · subst same
        exact general.reads_of_offers rereads rfl offers

omit [BlockState C] in
theorem select_eq_of_bytes {position : Nat} {pool : Pool T UInt64} {txs : List (SealedTx T)}
    (stocked : pool.Stocked (Admitted codec position)) (reads : ∀ sealedTx ∈ txs, codec.Reads sealedTx)
    (same : pool.select.1.map SealedTx.bytes = txs.map SealedTx.bytes) : pool.select.1 = txs := by
  have read : ∀ sealedTx ∈ pool.select.1, codec.Reads sealedTx := fun sealedTx mem =>
    reads_of_holds stocked (.of_mem_select mem)
  exact Registry.eq_of_map_bytes_eq read reads same

theorem Reached.lanes_of_bytes (reached : Reached config codec verifier funds builder)
    (bids others : List (SealedTx T))
    (order : builder.registry.lanes.map (fun lane => lane.select.1.map SealedTx.bytes) =
      [bids.map SealedTx.bytes, others.map SealedTx.bytes])
    (reads : ∀ sealedTx ∈ bids ++ others, codec.Reads sealedTx) :
    ∃ top rest, builder.registry.lanes =
        [.auction { auctionLane config codec verifier funds with pool := top },
          .general { generalLane config codec verifier with pool := rest }] ∧
      top.select.1 = bids ∧ rest.select.1 = others ∧ top.Aligned ∧ rest.Aligned := by
  obtain ⟨top, rest, lanes, stocked, stocked'⟩ := reached.lanes
  obtain ⟨readBids, readOthers⟩ := List.forall_mem_append.mp reads
  rw [lanes] at order
  obtain ⟨auction, general⟩ := List.cons.inj order
  exact ⟨top, rest, lanes, select_eq_of_bytes stocked readBids auction,
    select_eq_of_bytes stocked' readOthers (List.cons.inj general).1, stocked.aligned, stocked'.aligned⟩

theorem Reached.review_of_build (reached : Reached config codec verifier funds builder)
    (judgeMade : judge.MadeFrom config codec verifier funds) (rereads : codec.Rereads)
    (ignores : verifier.IgnoresPhase) (ignore : funds.IgnorePhase) (same : SameButPhase state other)
    (statePhase : (BlockState.phase state).isSubmission = false)
    (otherPhase : (BlockState.phase other).isSubmission = false)
    (limited : BlockState.byteLimit other = limit) :
    ∃ draft, (builder.registry.build state limit).result = .ok draft ∧
      judge.registry.review codec other draft.txs = .ok draft := by
  obtain ⟨txs, draft, ok, built⟩ := builder.registry.built_build state limit
  have bytes : draft.txs = txs.map SealedTx.bytes := by simpa [Draft.empty] using built.bytes
  have read : Registry.readBlock codec draft.txs = .ok txs := by
    rw [bytes]
    exact Registry.readBlock_map_bytes fun sealedTx mem =>
      reached.reads_of_offers rereads (built.offers sealedTx mem)
  -- the judge reads the very transactions that were given, so it can take both parts as they are
  obtain ⟨top, rest, middle, extended, rfl, part, noBids, valid, added, restAdded⟩ :=
    reached.madeFrom.parts_of_built built
  have respects : Respects (some verifier) SameButPhase := ignores
  have sameBlock : SameBlock state other := ⟨same, statePhase.trans otherPhase.symm⟩
  obtain ⟨otherMiddle, otherPart, sameMiddle⟩ :=
    part.agrees respects same sameBlock.targetHeight_eq (ignore _ _ same)
  obtain ⟨otherAfter, otherValid, -⟩ := replay_agrees ignores sameMiddle valid
  have judged := judge_bareLanes_eq_ok_iff.mpr
    ⟨top, rest, otherMiddle, extended, rfl, AuctionLane.takes_of_bidPart otherPart, noBids,
      otherValid, added, restAdded⟩
  refine ⟨draft, ok, ?_⟩
  rw [Registry.review_eq_of_bare judgeMade.bare, Registry.review, read, limited]
  exact congrArg Prod.fst judged

end Builder

end BlockBuilder
