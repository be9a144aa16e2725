import BlockBuilder.Proofs.Builder.Carryover
import BlockBuilder.Proofs.Lane.Isolation
import BlockBuilder.Proofs.Share.Portions

/-!
# The byte budget

A general lane that comes to its turn picks no more than its own allowance, but the draft also checks
the whole block, and refuses all of the picks if they do not fit behind what is there already
(`GeneralLane.Overfills`). In a builder that can only happen when the auction lane has no share of its
own and the general lane has one: the shares then leave the winning bid out of account
(`Builder.Reached.budgeted`).
-/
namespace BlockBuilder

variable {C T : Type}

/-! ## One lane at its turn -/

namespace GeneralLane

variable {lane : GeneralLane C T} {draft : Draft} {state : C}

def Overfills (lane : GeneralLane C T) (draft : Draft) (state : C) : Prop :=
  draft.limit < addCapped draft.total (Draft.bytesOf (lane.picks draft state).chosen)

instance : Decidable (lane.Overfills draft state) := Nat.decLt ..

theorem not_overfills_of_isZero (free : lane.settings.limits.share.isZero = true)
    (within : draft.total ≤ draft.limit) : ¬lane.Overfills draft state := by
  have small : Draft.bytesOf (lane.picks draft state).chosen ≤ draft.allowance _ := picks_within
  rw [Draft.allowance, if_pos free, Draft.free] at small
  apply Nat.not_lt.mpr
  exact (Nat.min_le_left ..).trans (by omega)

theorem not_overfills_of_portion {share : Share}
    (fits : Share.fitsBlock [share, lane.settings.limits.share] = true)
    (own : lane.settings.limits.share.isZero = false) (within : draft.total ≤ share.portion draft.limit) :
    ¬lane.Overfills draft state := by
  have small : Draft.bytesOf (lane.picks draft state).chosen ≤ draft.allowance _ := picks_within
  rw [Draft.allowance, own, if_neg Bool.false_ne_true] at small
  have both := Share.sum_portion_le fits draft.limit
  simp only [List.map_cons, List.map_nil, List.sum_cons, List.sum_nil, Nat.add_zero] at both
  apply Nat.not_lt.mpr
  exact (Nat.min_le_left ..).trans ((Nat.add_le_add within small).trans both)

variable [Transaction T] [BlockState C]

theorem fails_iff (first : draft.contribution? lane.name = none) (within : draft.total ≤ draft.limit) :
    StandardLane.Fails (.general lane) draft state ↔
      lane.Overfills draft state ∨ ¬((lane.picks draft state).chosen.map SealedTx.digest).Nodup := by
  have refused : StandardLane.Fails (.general lane) draft state ↔
      ¬∃ extended, draft.add lane.name lane.settings.limits.share (lane.picks draft state).chosen =
        .ok extended := by
    rw [← contribute_result_eq]
    unfold StandardLane.Fails StandardLane.settings
    cases ((StandardLane.general lane).contribute draft (draft.allowance lane.settings.limits.share)
      state).result <;> simp
  rw [refused]
  by_cases empty : (lane.picks draft state).chosen = []
  · have fits : ¬lane.Overfills draft state := by
      unfold Overfills
      rw [empty]
      exact Nat.not_lt.mpr ((Nat.min_le_left ..).trans within)
    simp [empty, Draft.add_nil, fits]
  · have admits : draft.Admits lane.name lane.settings.limits.share (lane.picks draft state).chosen ↔
        ¬lane.Overfills draft state ∧ ((lane.picks draft state).chosen.map SealedTx.digest).Nodup := by
      constructor
      · intro admits
        exact ⟨Nat.not_lt.mpr admits.withinBlock, admits.distinct⟩
      · rintro ⟨fits, distinct⟩
        exact ⟨first, distinct, (lane.picked_picks draft state).new, picks_within, Nat.not_lt.mp fits⟩
    simp only [Draft.add_eq_ok_iff_of_ne_nil empty, admits, exists_and_left, exists_eq, and_true]
    rw [not_and_or, not_not]

end GeneralLane

/-! ## The auction lane before it -/

namespace AuctionLane

variable [Transaction T] [BlockState C]

theorem exists_add_opening (lane : AuctionLane C T) (limit : Nat) (state : C) :
    ∃ top : List (SealedTx T), (Draft.empty limit).add name lane.share top =
      .ok (lane.opening limit state lane.pool.select.1).draft := by
  have held : ∀ bidTx ∈ lane.pool.select.1, lane.pool.Holds bidTx :=
    fun bidTx mem => Pool.Holds.of_mem_select mem
  obtain ⟨top, -, added⟩ :=
    choose_gives (.empty limit) ((Draft.empty limit).allowance lane.share) state held
  exact ⟨top, added⟩

theorem total_opening_le (lane : AuctionLane C T) (limit : Nat) (state : C) :
    (lane.opening limit state lane.pool.select.1).draft.total ≤
      (Draft.empty limit).allowance lane.share := by
  obtain ⟨top, added⟩ := lane.exists_add_opening limit state
  rcases Draft.add_eq_ok_iff.mp added with ⟨-, same⟩ | ⟨-, admits, same⟩
  · rw [same]
    exact Nat.zero_le _
  · rw [same]
    have small : addCapped 0 (Draft.bytesOf top) ≤ Draft.bytesOf top := by
      rw [addCapped, Nat.zero_add]
      exact Nat.min_le_left ..
    exact small.trans admits.withinShare

end AuctionLane

/-! ## Both lanes of a builder -/

namespace Builder

variable [Transaction T] [BlockState C] {config : Config} {codec : Codec T} {verifier : Verifier C T}
  {funds : Funds C} {builder : Builder C T} {bids : AuctionLane C T} {others : GeneralLane C T}
  {state : C} {limit : Nat}

theorem propose_eq_of_fails (lanes : builder.registry.lanes = [.auction bids, .general others])
    (fails : StandardLane.Fails (.general others) (bids.opening limit state bids.pool.select.1).draft
      (bids.opening limit state bids.pool.select.1).state) :
    (builder.registry.propose state limit).1 = (bids.opening limit state bids.pool.select.1).draft.txs := by
  obtain ⟨cause, failed⟩ := fails
  have result := builder.registry.build_result_of_pair state limit lanes
  have refused := GeneralLane.contribute_result_eq.symm.trans failed
  dsimp only at result
  rw [refused] at result
  rw [builder.registry.propose_eq_of_build state limit result]

theorem propose_eq_of_not_fails (lanes : builder.registry.lanes = [.auction bids, .general others])
    (included : ¬StandardLane.Fails (.general others)
      (bids.opening limit state bids.pool.select.1).draft
      (bids.opening limit state bids.pool.select.1).state) :
    let opened := bids.opening limit state bids.pool.select.1
    (builder.registry.propose state limit).1 =
      opened.draft.txs ++ (others.picks opened.draft opened.state).chosen.map SealedTx.bytes := by
  have result := builder.registry.build_result_of_pair state limit lanes
  dsimp only at result ⊢
  generalize bids.opening limit state bids.pool.select.1 = opened at *
  cases taken : opened.draft.add others.name others.settings.limits.share
      (others.picks opened.draft opened.state).chosen with
  | error cause => exact absurd ⟨cause, GeneralLane.contribute_result_eq.trans taken⟩ included
  | ok extended =>
    rw [taken] at result
    rw [builder.registry.propose_eq_of_build state limit result]
    exact Draft.txs_of_add taken

theorem Reached.eq_of_lanes (reached : Reached config codec verifier funds builder)
    (lanes : builder.registry.lanes = [.auction bids, .general others]) :
    bids = { auctionLane config codec verifier funds with pool := bids.pool } ∧
      others = { generalLane config codec verifier with pool := others.pool } ∧
      others.pool.Stocked (Admitted codec 1) := by
  obtain ⟨auction, general, filled, -, stocked⟩ := reached.lanes
  rw [lanes] at filled
  simp only [List.cons.injEq, StandardLane.auction.injEq, StandardLane.general.injEq, and_true] at filled
  obtain ⟨rfl, rfl⟩ := filled
  exact ⟨rfl, rfl, stocked⟩

theorem Reached.turn (reached : Reached config codec verifier funds builder)
    (lanes : builder.registry.lanes = [.auction bids, .general others]) (state : C) (limit : Nat) :
    let draft := (bids.opening limit state bids.pool.select.1).draft
    draft.limit = limit ∧ draft.total ≤ draft.limit ∧ draft.contribution? others.name = none := by
  obtain ⟨auction, general, -⟩ := reached.eq_of_lanes lanes
  obtain ⟨proper, -⟩ := Config.shares_of_check reached.settled.1
  obtain ⟨top, added⟩ := bids.exists_add_opening limit state
  have limited : (bids.opening limit state bids.pool.select.1).draft.limit = limit :=
    Draft.limit_of_add added
  have other : others.name ≠ AuctionLane.name := by
    rw [general]
    change GeneralLane.defaultName ≠ AuctionLane.name
    decide
  refine ⟨limited, ?_, (Draft.contribution?_of_add other added).trans rfl⟩
  have share : bids.share = config.auctionLane.share := by rw [auction]; rfl
  have opening := bids.total_opening_le limit state
  rw [share] at opening
  exact (opening.trans (allowance_empty_le proper limit)).trans_eq limited.symm

theorem Reached.shares_of_overfills (reached : Reached config codec verifier funds builder)
    (lanes : builder.registry.lanes = [.auction bids, .general others])
    (overfills : others.Overfills (bids.opening limit state bids.pool.select.1).draft
      (bids.opening limit state bids.pool.select.1).state) :
    config.auctionLane.share.isZero = true ∧ config.defaultLane.share.isZero = false := by
  obtain ⟨auction, general, -⟩ := reached.eq_of_lanes lanes
  obtain ⟨-, -, fits⟩ := Config.shares_of_check reached.settled.1
  have auctionShare : bids.share = config.auctionLane.share := by rw [auction]; rfl
  have generalShare : others.settings.limits.share = config.defaultLane.share := by rw [general]; rfl
  rw [← auctionShare, ← generalShare] at fits ⊢
  obtain ⟨limited, within, -⟩ := reached.turn lanes state limit
  have own : others.settings.limits.share.isZero = false := by
    rw [Bool.eq_false_iff]
    intro free
    exact GeneralLane.not_overfills_of_isZero free within overfills
  refine ⟨?_, own⟩
  by_contra shared
  have opening := bids.total_opening_le limit state
  rw [Draft.allowance, if_neg shared] at opening
  refine GeneralLane.not_overfills_of_portion fits own ?_ overfills
  rw [limited]
  exact opening

theorem Reached.exists_collision (reached : Reached config codec verifier funds builder)
    (lanes : builder.registry.lanes = [.auction bids, .general others]) {draft : Draft}
    (repeats : ¬((others.picks draft state).chosen.map SealedTx.digest).Nodup) :
    ∃ first second, others.pool.Holds first ∧ others.pool.Holds second ∧
      first.digest = second.digest ∧ first.bytes ≠ second.bytes := by
  obtain ⟨-, -, stocked⟩ := reached.eq_of_lanes lanes
  have aligned := stocked.aligned
  have picked := (others.picked_picks draft state).sublist
  have held : ∀ sealedTx ∈ (others.picks draft state).chosen,
      others.pool.Holds sealedTx ∧ codec.Reads sealedTx := by
    intro sealedTx mem
    have holds : others.pool.Holds sealedTx := .of_mem_select (picked.subset mem)
    exact ⟨holds, reads_of_holds stocked holds⟩
  by_contra none
  apply repeats
  apply (aligned.givesOut_select.nodup.sublist picked).map_on
  intro first mem second mem' same
  obtain ⟨holds, reads⟩ := held first mem
  obtain ⟨holds', reads'⟩ := held second mem'
  by_cases bytes : first.bytes = second.bytes
  · exact reads.eq_of_bytes_eq reads' bytes
  · exact absurd ⟨first, second, holds, holds', same, bytes⟩ none

structure Budgeted (config : Config) (others : GeneralLane C T) (opened : AuctionLane.Choice C)
    (block : List Bytes) : Prop where
  shares : others.Overfills opened.draft opened.state →
    config.auctionLane.share.isZero = true ∧ config.defaultLane.share.isZero = false
  overfilled : others.Overfills opened.draft opened.state →
    StandardLane.Fails (.general others) opened.draft opened.state
  failed : StandardLane.Fails (.general others) opened.draft opened.state →
    others.Overfills opened.draft opened.state ∨
      ∃ first second, others.pool.Holds first ∧ others.pool.Holds second ∧
        first.digest = second.digest ∧ first.bytes ≠ second.bytes
  skipped : StandardLane.Fails (.general others) opened.draft opened.state → block = opened.draft.txs
  filled : ¬StandardLane.Fails (.general others) opened.draft opened.state →
    block = opened.draft.txs ++ (others.picks opened.draft opened.state).chosen.map SealedTx.bytes
  shortened (higher : Nat) (more : opened.draft.allowance others.settings.limits.share ≤ higher) :
    (others.picks opened.draft opened.state).chosen <+:
      (others.pick opened.draft higher others.pool.select.1 0 opened.state).chosen

/-- The general lane fails exactly if its picks do not fit behind the winning bid, which only happens
if the auction lane has no share and the general lane has one. -/
theorem Reached.budgeted (reached : Reached config codec verifier funds builder)
    (lanes : builder.registry.lanes = [.auction bids, .general others]) (state : C) (limit : Nat) :
    Budgeted config others (bids.opening limit state bids.pool.select.1)
      (builder.registry.propose state limit).1 := by
  obtain ⟨-, within, first⟩ := reached.turn lanes state limit
  constructor
  · exact reached.shares_of_overfills lanes
  · exact fun overfills => (GeneralLane.fails_iff first within).mpr (.inl overfills)
  · intro failed
    exact ((GeneralLane.fails_iff first within).mp failed).imp_right fun repeats =>
      reached.exists_collision lanes repeats
  · exact propose_eq_of_fails lanes
  · exact propose_eq_of_not_fails lanes
  · exact fun higher more => GeneralLane.pick_prefix_of_le more 0

end Builder

/-! ## A budget that is overdrawn

The auction lane has no share and the general lane has the whole block. -/

namespace Overdrawn

open Ledger

def config : Config := { auctionLane := { share := .zero }, defaultLane := { share := .one } }

def builder : Builder State Tx :=
  [[3], [1], [2]].foldl (fun builder bytes =>
      { builder with registry := (builder.rules.submit builder.registry (HeldUp.state .check) bytes).2 })
    (.fresh config HeldUp.codec (Rules.verifier {}) State.funds)

theorem reached : Builder.Reached config HeldUp.codec (Rules.verifier {}) State.funds builder := by
  have start : Builder.Reached config HeldUp.codec (Rules.verifier {}) State.funds
      (.fresh config HeldUp.codec (Rules.verifier {}) State.funds) :=
    .start (Builder.ofConfig_of_check (by decide) _ _ _)
  exact start.submitAll (HeldUp.state .check) [[3], [1], [2]]

def first : SealedTx Tx := .ofParts (.transfer (.ofIndex 1) 6 0) [1]

def second : SealedTx Tx := .ofParts (.transfer (.ofIndex 2) 5 0) [2]

theorem exists_lanes : ∃ bids others, builder.registry.lanes = [.auction bids, .general others] ∧
    bids.pool.select.1 = [HeldUp.low] ∧ others.pool.select.1 = [first, second] := by
  have order : builder.registry.lanes.map (fun lane => lane.select.1.map SealedTx.bytes) =
      [[HeldUp.low].map SealedTx.bytes, [first, second].map SealedTx.bytes] := by
    decide
  have reads : ∀ sealedTx ∈ [HeldUp.low] ++ [first, second], HeldUp.codec.Reads sealedTx := by
    simp only [List.cons_append, List.nil_append, List.forall_mem_cons]
    exact ⟨rfl, rfl, rfl, by simp⟩
  obtain ⟨bids, others, lanes, auction, general, -⟩ := reached.lanes_of_bytes _ _ order reads
  exact ⟨_, _, lanes, auction, general⟩

theorem exists_opening {bids : AuctionLane State Tx} {others : GeneralLane State Tx}
    (lanes : builder.registry.lanes = [.auction bids, .general others])
    (selected : bids.pool.select.1 = [HeldUp.low]) :
    ∃ after, bids.opening 3 (HeldUp.state .prepare) bids.pool.select.1 =
      ⟨[], (Draft.empty 3).append AuctionLane.name [HeldUp.low, HeldUp.bundled], after⟩ := by
  have reads : ∀ sealedTx ∈ [HeldUp.bundled], HeldUp.codec.Reads sealedTx :=
    List.forall_mem_singleton.mpr rfl
  obtain ⟨bid, after, outcome⟩ : ∃ bid after, ((Builder.auctionLane config HeldUp.codec
      (Rules.verifier {}) State.funds).verifyBid HeldUp.low).outcome (HeldUp.state .prepare) =
        (.ok (bid, [HeldUp.bundled]), after) :=
    AuctionLane.exists_verified_of_bytes HeldUp.canonical_codec.rereads reads (by decide +kernel)
  obtain ⟨same, -⟩ := reached.eq_of_lanes lanes
  have share : bids.share = .zero := by rw [same]; rfl
  have proper : bids.share.isProper = true := by
    rw [share]
    decide
  have fits : Draft.bytesOf [HeldUp.low, HeldUp.bundled] ≤ (Draft.empty 3).allowance bids.share := by
    rw [share]
    exact (by decide : 2 ≤ 3)
  rw [← AuctionLane.verifyBid_withPool _ bids.pool, ← same] at outcome
  rw [selected]
  exact ⟨after, AuctionLane.opening_cons_of_verified [] proper outcome fits⟩

theorem overfills {bids : AuctionLane State Tx} {others : GeneralLane State Tx}
    (lanes : builder.registry.lanes = [.auction bids, .general others])
    (general : others.pool.select.1 = [first, second]) (after : State) :
    others.Overfills ((Draft.empty 3).append AuctionLane.name [HeldUp.low, HeldUp.bundled]) after := by
  obtain ⟨-, same, -⟩ := reached.eq_of_lanes lanes
  have chosen : (others.picks ((Draft.empty 3).append AuctionLane.name [HeldUp.low, HeldUp.bundled])
      after).chosen = [first, second] := by
    have new : ((Draft.empty 3).append AuctionLane.name [HeldUp.low, HeldUp.bundled]).contains first.digest =
        false ∧ ((Draft.empty 3).append AuctionLane.name [HeldUp.low, HeldUp.bundled]).contains second.digest =
          false := by
      have others : first.digest ∉ [HeldUp.low, HeldUp.bundled].map SealedTx.digest ∧
          second.digest ∉ [HeldUp.low, HeldUp.bundled].map SealedTx.digest :=
        ⟨(HeldUp.distinct_digests [1, 3, 0] (by decide) (by decide)).notMem,
          (HeldUp.distinct_digests [2, 3, 0] (by decide) (by decide)).notMem⟩
      rw [Draft.contains_append, Draft.contains_append, Draft.contains_empty, Draft.contains_empty]
      simpa using others
    have valid (state : State) (sealedTx : SealedTx Tx) (free : sealedTx = first ∨ sealedTx = second) :
        ∃ next, others.settings.verify state sealedTx.tx false = .ok next := by
      rw [same]
      rcases free with rfl | rfl <;> exact ⟨_, rfl⟩
    obtain ⟨middle, validFirst⟩ := valid after first (.inl rfl)
    obtain ⟨final, validSecond⟩ := valid middle second (.inr rfl)
    have accepts (state : State) : others.accepts state first.tx = true ∧
        others.accepts state second.tx = true := by
      rw [same]
      exact ⟨rfl, rfl⟩
    have allowance : ((Draft.empty 3).append AuctionLane.name [HeldUp.low, HeldUp.bundled]).allowance
        others.settings.limits.share = 3 := by
      have share : others.settings.limits.share = .one := by rw [same]; rfl
      rw [share, Draft.allowance, if_neg (by decide)]
      exact (by decide : Share.one.portion 3 = 3)
    have sizes : addCapped 0 first.size = 1 ∧ addCapped 1 second.size = 2 := ⟨rfl, rfl⟩
    rw [GeneralLane.picks, general, allowance]
    simp [GeneralLane.pick, accepts, new, sizes, validFirst, validSecond, GeneralLane.Picks.choose]
  rw [GeneralLane.Overfills, chosen]
  decide

end Overdrawn

namespace Builder

open Ledger Overdrawn in
theorem budgeted_of_overdrawn :
    ∃ bids others, Overdrawn.builder.registry.lanes = [.auction bids, .general others] ∧
      Budgeted Overdrawn.config others (bids.opening 3 (HeldUp.state .prepare) bids.pool.select.1)
        (Overdrawn.builder.registry.propose (HeldUp.state .prepare) 3).1 := by
  obtain ⟨bids, others, lanes, -⟩ := exists_lanes
  exact ⟨bids, others, lanes, Reached.budgeted reached lanes _ _⟩

open Ledger Overdrawn in
/-- So the general lane can be skipped although one of its transactions would still fit. -/
theorem exists_general_skipped :
    Reached Overdrawn.config HeldUp.codec (Rules.verifier {}) State.funds Overdrawn.builder ∧
      ∃ bids others, Overdrawn.builder.registry.lanes = [.auction bids, .general others] ∧
        let opened := bids.opening 3 (HeldUp.state .prepare) bids.pool.select.1
        StandardLane.Fails (.general others) opened.draft opened.state ∧
        (Overdrawn.builder.registry.propose (HeldUp.state .prepare) 3).1 = [[3], [0]] ∧
        others.pool.Holds first ∧ opened.draft.total + first.size ≤ 3 := by
  obtain ⟨bids, others, lanes, auction, general⟩ := exists_lanes
  obtain ⟨after, opened⟩ := exists_opening lanes auction
  obtain ⟨-, within, new⟩ := reached.turn lanes (HeldUp.state .prepare) 3
  have fails : StandardLane.Fails (.general others)
      (bids.opening 3 (HeldUp.state .prepare) bids.pool.select.1).draft
      (bids.opening 3 (HeldUp.state .prepare) bids.pool.select.1).state := by
    apply (GeneralLane.fails_iff new within).mpr
    rw [opened]
    exact .inl (overfills lanes general after)
  refine ⟨reached, bids, others, lanes, fails, ?_, .of_mem_select (general ▸ by simp), ?_⟩
  · rw [propose_eq_of_fails lanes fails, opened]
    rfl
  · rw [opened]
    exact (by decide : 2 + 1 ≤ 3)

end Builder

end BlockBuilder
