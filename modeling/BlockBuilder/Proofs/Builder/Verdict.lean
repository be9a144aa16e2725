import BlockBuilder.Proofs.Lane.Building

namespace BlockBuilder

variable {C T : Type}

structure PartsFit (config : Config) (limit : Nat) (top rest : List (SealedTx T)) : Prop where
  distinct : ((top ++ rest).map SealedTx.digest).Nodup
  auctionShare : totalSize top ≤ config.auctionLane.share.allowed limit 0
  defaultShare : totalSize rest ≤ config.defaultLane.share.allowed limit (totalSize top)
  blockLimit : totalSize (top ++ rest) ≤ limit

section Parts

variable {config : Config} {limit : Nat} {top rest : List (SealedTx T)} {extended : Draft}

theorem exists_add_top_iff (small : totalSize top ≤ maxCount) :
    (∃ extended,
      (Draft.empty limit).add AuctionLane.name config.auctionLane.share top = .ok extended) ↔
      (top.map SealedTx.digest).Nodup ∧ totalSize top ≤ config.auctionLane.share.allowed limit 0 ∧
        totalSize top ≤ limit := by
  have total : (Draft.empty limit).total = 0 := rfl
  rw [Draft.exists_add_iff rfl (by omega) (by omega), total]
  simp [Draft.empty, Draft.contains]

theorem exists_add_rest_iff (small : totalSize (top ++ rest) ≤ maxCount)
    (added : (Draft.empty limit).add AuctionLane.name config.auctionLane.share top = .ok extended) :
    (∃ final,
      extended.add GeneralLane.defaultName config.defaultLane.share rest = .ok final) ↔
      (rest.map SealedTx.digest).Nodup ∧
        (∀ sealedTx ∈ rest, sealedTx.digest ∉ top.map SealedTx.digest) ∧
        totalSize rest ≤ config.defaultLane.share.allowed limit (totalSize top) ∧
        totalSize top + totalSize rest ≤ limit := by
  rw [totalSize_append] at small
  have first : extended.contribution? GeneralLane.defaultName = none :=
    Draft.contribution?_of_add (by decide) added
  have total : extended.total = 0 + totalSize top :=
    Draft.total_of_add (by simp only [Draft.empty]; omega) added
  have limits : extended.limit = limit := Draft.limit_of_add added
  have within : totalSize top ≤ limit := ((exists_add_top_iff (by omega)).mp ⟨extended, added⟩).2.2
  have fresh (digest : Digest) :
      extended.contains digest = false ↔ digest ∉ top.map SealedTx.digest := by
    simp [Draft.contains_eq_false_iff_of_add added digest]
  rw [Draft.exists_add_iff first (by omega) (by omega), total, limits, Nat.zero_add]
  simp only [fresh]

theorem exists_add_parts_iff (small : totalSize (top ++ rest) ≤ maxCount) :
    (∃ extended final,
      (Draft.empty limit).add AuctionLane.name config.auctionLane.share top = .ok extended ∧
      extended.add GeneralLane.defaultName config.defaultLane.share rest = .ok final) ↔
      PartsFit config limit top rest := by
  have topSmall : totalSize top ≤ maxCount := by
    rw [totalSize_append] at small
    omega
  constructor
  · rintro ⟨extended, final, added, restAdded⟩
    obtain ⟨topDistinct, topShare, -⟩ := (exists_add_top_iff topSmall).mp ⟨extended, added⟩
    obtain ⟨restDistinct, fresh, restShare, within⟩ :=
      (exists_add_rest_iff small added).mp ⟨final, restAdded⟩
    refine ⟨?_, topShare, restShare, by rwa [totalSize_append]⟩
    rw [List.map_append, List.nodup_append]
    refine ⟨topDistinct, restDistinct, ?_⟩
    rintro digest above _ below rfl
    obtain ⟨sealedTx, mem, rfl⟩ := List.mem_map.mp below
    exact fresh sealedTx mem above
  · rintro ⟨distinct, topShare, restShare, within⟩
    rw [totalSize_append] at within
    rw [List.map_append, List.nodup_append] at distinct
    obtain ⟨topDistinct, restDistinct, disjoint⟩ := distinct
    obtain ⟨extended, added⟩ := (exists_add_top_iff topSmall).mpr ⟨topDistinct, topShare, by omega⟩
    obtain ⟨final, restAdded⟩ := (exists_add_rest_iff small added).mpr
      ⟨restDistinct, fun sealedTx mem above => disjoint _ above _ (List.mem_map_of_mem mem) rfl,
        restShare, within⟩
    exact ⟨extended, final, added, restAdded⟩

end Parts

theorem Registry.readBlock_eq_ok_iff {codec : Codec T} {block : List Bytes}
    {txs : List (SealedTx T)} :
    readBlock codec block = .ok txs ↔
      List.Forall₂ (fun bytes sealedTx => SealedTx.decode codec bytes = .ok sealedTx) block txs := by
  induction block generalizing txs with
  | nil => simp [readBlock, eq_comm]
  | cons bytes rest ih =>
    simp only [readBlock, bind_eq_ok_iff, ih, List.forall₂_cons_left_iff]
    constructor
    · rintro ⟨first, read, others, readOthers, same⟩
      cases same
      exact ⟨first, others, read, readOthers, rfl⟩
    · rintro ⟨first, others, read, readOthers, rfl⟩
      exact ⟨first, read, others, readOthers, rfl⟩

theorem Registry.map_bytes_of_readBlock {codec : Codec T} {block : List Bytes}
    {txs : List (SealedTx T)} (read : readBlock codec block = .ok txs) :
    txs.map SealedTx.bytes = block := by
  rw [readBlock_eq_ok_iff] at read
  induction read with
  | nil => rfl
  | cons first _ ih =>
    obtain ⟨rfl, -⟩ := SealedTx.decode_eq_ok_iff.mp first
    rw [List.map_cons, ih]

theorem Registry.exists_readBlock {codec : Codec T} {block : List Bytes}
    (decodable : ∀ entry ∈ block, ∃ tx, codec.decode entry = .ok tx) :
    ∃ txs, readBlock codec block = .ok txs := by
  induction block with
  | nil => exact ⟨[], rfl⟩
  | cons entry rest ih =>
    obtain ⟨⟨tx, read⟩, decodable⟩ := List.forall_mem_cons.mp decodable
    obtain ⟨txs, readRest⟩ := ih decodable
    refine ⟨.ofParts tx entry :: txs, readBlock_eq_ok_iff.mpr (.cons ?_ ?_)⟩
    · exact SealedTx.decode_eq_ok_iff.mpr ⟨rfl, read⟩
    · exact readBlock_eq_ok_iff.mp readRest

variable [BlockState C]

theorem Registry.exists_readBlock_of_review {L : Type} [BlockLane L C T] {registry : Registry L}
    {codec : Codec T} {state : C} {block : List Bytes} {draft : Draft}
    (reviewed : registry.review codec state block = .ok draft) :
    ∃ txs, readBlock codec block = .ok txs := by
  unfold review at reviewed
  cases read : readBlock codec block with
  | error cause => simp [read] at reviewed
  | ok txs => exact ⟨txs, rfl⟩

theorem Registry.vote_eq_accept_iff_review {L : Type} [BlockLane L C T] {registry : Registry L}
    {codec : Codec T} {state : C} {block : List Bytes} :
    registry.vote codec state block = .accept ↔
      ∃ draft, registry.review codec state block = .ok draft := by
  unfold vote
  cases registry.review codec state block <;> simp

namespace Builder

variable [Transaction T] {config : Config} {codec : Codec T} {verifier : Verifier C T} {funds : Funds C}
  {builder : Builder C T} {state after : C} {draft final : Draft} {block : List Bytes}
  {txs : List (SealedTx T)}

theorem judge_bareLanes_eq_ok_iff :
    (Chain.judge (bareLanes config codec verifier funds) draft txs).outcome state =
        (.ok final, after) ↔
      ∃ top rest middle extended, txs = top ++ rest ∧
        (auctionLane config codec verifier funds).Takes state top middle ∧
        (∀ sealedTx ∈ rest, Transaction.isBid sealedTx.tx = false) ∧
        replay (some verifier) middle (rest.map SealedTx.tx) = .ok after ∧
        draft.add AuctionLane.name config.auctionLane.share top = .ok extended ∧
        extended.add GeneralLane.defaultName config.defaultLane.share rest = .ok final := by
  simp only [bareLanes, Chain.judge_cons_eq_ok_iff, Chain.judge_nil_eq_ok_iff]
  constructor
  · rintro ⟨extended, remaining, middle, bidClaimed, _, _, _, restClaimed, rfl, rfl, rfl⟩
    obtain ⟨top, rfl, takes, noBids, added⟩ := AuctionLane.claim_eq_ok_iff.mp bidClaimed
    obtain ⟨rest, same, accepted, -, valid, restAdded⟩ := GeneralLane.claim_eq_ok_iff.mp restClaimed
    rw [List.append_nil] at same
    subst same
    exact ⟨top, remaining, middle, extended, rfl, takes, noBids, valid, added, restAdded⟩
  · rintro ⟨top, rest, middle, extended, rfl, takes, noBids, valid, added, restAdded⟩
    refine ⟨extended, rest, middle, AuctionLane.claim_eq_ok_iff.mpr ⟨top, rfl, takes, noBids, added⟩,
      final, [], after, GeneralLane.claim_eq_ok_iff.mpr ⟨rest, by simp, ?_, by simp, valid, restAdded⟩,
      rfl, rfl, rfl⟩
    intro sealedTx mem
    rw [generalLane_accepts_eq, noBids sealedTx mem]
    rfl

structure AcceptedAs (config : Config) (codec : Codec T) (verifier : Verifier C T) (funds : Funds C)
    (state : C) (block : List Bytes) (top rest : List (SealedTx T)) : Prop where
  readable : List.Forall₂ (fun bytes sealedTx => SealedTx.decode codec bytes = .ok sealedTx)
    block (top ++ rest)
  valid : ∃ middle after, (auctionLane config codec verifier funds).Takes state top middle ∧
    replay (some verifier) middle (rest.map SealedTx.tx) = .ok after
  noBids : ∀ sealedTx ∈ rest, Transaction.isBid sealedTx.tx = false
  fits : PartsFit config (BlockState.byteLimit state) top rest

omit [Transaction T] [BlockState C] in
theorem totalSize_of_readBlock (read : Registry.readBlock codec block = .ok txs) :
    totalSize txs = (block.map List.length).sum := by
  rw [totalSize_eq_sum_length, Registry.map_bytes_of_readBlock read]

theorem exists_review_iff (made : builder.MadeFrom config codec verifier funds)
    (small : (block.map List.length).sum ≤ maxCount) :
    (∃ draft, builder.registry.review codec state block = .ok draft) ↔
      ∃ top rest, AcceptedAs config codec verifier funds state block top rest := by
  rw [Registry.review_eq_of_bare made.bare]
  unfold Registry.review
  constructor
  · rintro ⟨draft, reviewed⟩
    split at reviewed
    · cases reviewed
    · rename_i txs read
      rw [← totalSize_of_readBlock read] at small
      obtain ⟨top, rest, middle, extended, rfl, takes, noBids, valid, added⟩ :=
        judge_bareLanes_eq_ok_iff.mp (Prod.ext reviewed rfl)
      exact ⟨top, rest, Registry.readBlock_eq_ok_iff.mp read, ⟨middle, _, takes, valid⟩, noBids,
        (exists_add_parts_iff small).mp ⟨extended, draft, added⟩⟩
  · rintro ⟨top, rest, readable, ⟨middle, after, takes, valid⟩, noBids, fits⟩
    have read := Registry.readBlock_eq_ok_iff.mpr readable
    rw [← totalSize_of_readBlock read] at small
    obtain ⟨extended, draft, added⟩ := (exists_add_parts_iff small).mpr fits
    have judged := judge_bareLanes_eq_ok_iff.mpr
      ⟨top, rest, middle, extended, rfl, takes, noBids, valid, added⟩
    refine ⟨draft, ?_⟩
    rw [read]
    exact congrArg Prod.fst judged

/-- The verdict on a block, exactly: it is accepted if it is acceptable as two parts, and what the
lanes hold makes no difference. -/
theorem vote_accept_iff (made : builder.MadeFrom config codec verifier funds)
    (small : (block.map List.length).sum ≤ maxCount) :
    (builder.registry.vote codec state block = .accept ↔
      ∃ top rest, AcceptedAs config codec verifier funds state block top rest) ∧
    ∀ other : Builder C T, other.MadeFrom config codec verifier funds →
      other.registry.vote codec state block = builder.registry.vote codec state block := by
  constructor
  · rw [Registry.vote_eq_accept_iff_review]
    exact exists_review_iff made small
  · intro other otherMade
    unfold Registry.vote
    rw [Registry.review_eq_of_bare made.bare, Registry.review_eq_of_bare otherMade.bare]

open Ledger HeldUp in
theorem vote_accept_iff_of_bid_and_transfer :
    let verifier := Rules.verifier {}
    let builder : Builder State Tx :=
      ⟨⟨[.auction (HeldUp.lane (.empty {})),
        .general (HeldUp.general ((Pool.empty {}).place 3 (.ofIndex 2) 6 paid))]⟩,
        HeldUp.codec, verifier, {}, State.funds⟩
    let state := HeldUp.state .process
    let block := [[3], [0], [6]]
    builder.registry.vote HeldUp.codec state block = .accept ∧
    (∃ top rest, AcceptedAs {} HeldUp.codec verifier State.funds state block top rest) ∧
    ∀ other : Builder State Tx, other.MadeFrom {} HeldUp.codec verifier State.funds →
      other.registry.vote HeldUp.codec state block = builder.registry.vote HeldUp.codec state block := by
  intro verifier builder state block
  have made : builder.MadeFrom {} HeldUp.codec verifier State.funds := .of_bare rfl rfl rfl
  have small : (block.map List.length).sum ≤ maxCount := by decide
  obtain ⟨bid, middle, after, verified, valid⟩ := low_verified .process (by decide)
  have acceptable : AcceptedAs {} HeldUp.codec verifier State.funds state block [low, bundled] [paid] := by
    refine ⟨.cons rfl (.cons rfl (.cons rfl .nil)), ⟨middle, after, .bid verified rfl, ?_⟩, ?_, ?_⟩
    · exact replay_cons_eq_ok.mpr ⟨after, valid, rfl⟩
    · exact List.forall_mem_singleton.mpr rfl
    · exact ⟨distinct_digests [3, 0, 6] (by decide) (by decide), by decide, by decide, by decide⟩
  exact ⟨(vote_accept_iff made small).1.mpr ⟨_, _, acceptable⟩, ⟨_, _, acceptable⟩,
    (vote_accept_iff made small).2⟩

end Builder

end BlockBuilder
