import BlockBuilder.Proofs.Builder.Progress
import BlockBuilder.Proofs.Lane.Eviction

namespace BlockBuilder

variable {C T : Type} {state : C} {limit : Nat}

/-! ## The first transaction of a lane -/

namespace GeneralLane

variable {lane : GeneralLane C T} {pending : List (SealedTx T)}

def Reaches (lane : GeneralLane C T) (limit : Nat) (state : C) (pending : List (SealedTx T)) : Prop :=
  ∃ before sealedTx after next, pending = before ++ sealedTx :: after ∧
    (∀ other ∈ before, Draft.bytesOf [other] ≤ limit) ∧ Draft.bytesOf [sealedTx] ≤ limit ∧
    execute lane.settings.verifier state sealedTx.tx = .ok next

theorem reaches_of_pick {bytes : Nat}
    (accepts : ∀ sealedTx ∈ pending, lane.accepts state sealedTx.tx = true)
    (picks : (lane.pick (.empty bytes) limit pending 0 state).chosen ≠ []) :
    lane.Reaches limit state pending := by
  induction pending with
  | nil => exact absurd rfl picks
  | cons first rest ih =>
    obtain ⟨accepted, others⟩ := List.forall_mem_cons.mp accepts
    cases lane.turn (.empty bytes) limit 0 state first with
    | drops drops =>
      rw [pick_cons_of_drops drops] at picks
      obtain ⟨before, sealedTx, after, next, rfl, small, fits, valid⟩ := ih others picks
      rcases drops with refused | ⟨-, own, -⟩
      · cases refused.symm.trans accepted
      · exact ⟨first :: before, sealedTx, after, next, rfl, List.forall_mem_cons.mpr ⟨own, small⟩,
          fits, valid⟩
    | known _ known =>
      rw [Draft.contains_empty] at known
      cases known
    | large _ new large =>
      rw [pick_cons_of_large accepted new large] at picks
      exact absurd rfl picks
    | takes next _ _ small valid => exact ⟨[], first, rest, next, rfl, by simp, small, valid⟩

theorem pick_ne_nil_of_reaches {bytes : Nat}
    (accepts : ∀ sealedTx ∈ pending, lane.accepts state sealedTx.tx = true)
    (reaches : lane.Reaches limit state pending) :
    (lane.pick (.empty bytes) limit pending 0 state).chosen ≠ [] := by
  obtain ⟨before, sealedTx, after, next, rfl, small, fits, valid⟩ := reaches
  induction before with
  | nil =>
    have accepted := accepts sealedTx List.mem_cons_self
    rw [List.nil_append, pick_cons_of_valid accepted Draft.contains_empty fits valid]
    exact List.cons_ne_nil _ _
  | cons first rest ih =>
    obtain ⟨own, others⟩ := List.forall_mem_cons.mp accepts
    obtain ⟨ownSmall, small⟩ := List.forall_mem_cons.mp small
    rw [List.cons_append]
    cases lane.turn (.empty bytes) limit 0 state first with
    | drops drops =>
      rw [pick_cons_of_drops drops]
      exact ih others small
    | known _ known =>
      rw [Draft.contains_empty] at known
      cases known
    | large _ _ large => exact absurd ownSmall (Nat.not_le.mpr large)
    | takes next accepted new small valid =>
      rw [pick_cons_of_valid accepted new small valid]
      exact List.cons_ne_nil _ _

end GeneralLane

variable [Transaction T] [BlockState C]

theorem AuctionLane.opening_of_lose {lane : AuctionLane C T} (proper : lane.share.isProper = true)
    (lose : ∀ bidTx, lane.pool.Holds bidTx → ¬lane.CanWin limit state bidTx) :
    (lane.opening limit state lane.pool.select.1).draft = .empty limit ∧
      (lane.opening limit state lane.pool.select.1).state = state := by
  have opens := lane.opens_opening proper limit state
  have none : (lane.pool.select.1.find? fun bidTx => lane.CanWin limit state bidTx) = none := by
    rw [List.find?_eq_none]
    intro bidTx mem
    simpa using lose bidTx (.of_mem_select mem)
  rwa [Opens, none] at opens

/-! ## Whole blocks -/

namespace Builder

variable {config : Config} {codec : Codec T} {verifier : Verifier C T} {funds : Funds C}
  {builder : Builder C T} {bids : AuctionLane C T} {others : GeneralLane C T}

theorem Reached.accepts_of_holds (reached : Reached config codec verifier funds builder)
    (lanes : builder.registry.lanes = [.auction bids, .general others]) {sealedTx : SealedTx T}
    (holds : others.pool.Holds sealedTx) (state : C) : others.accepts state sealedTx.tx = true := by
  obtain ⟨-, general, stocked⟩ := reached.eq_of_lanes lanes
  obtain ⟨priority, -, noBid⟩ := stocked.of_holds holds
  rw [if_neg Nat.one_ne_zero] at noBid
  have own : others.accepts state sealedTx.tx =
      (generalLane config codec verifier).accepts state sealedTx.tx := by
    rw [general]
    rfl
  rw [own, generalLane_accepts_eq, noBid]
  rfl

theorem Reached.propose_of_lose (reached : Reached config codec verifier funds builder)
    (lanes : builder.registry.lanes = [.auction bids, .general others])
    (distinct : ∀ first second, others.pool.Holds first → others.pool.Holds second →
      first.digest = second.digest → first.bytes = second.bytes)
    (lose : ∀ bidTx, bids.pool.Holds bidTx → ¬bids.CanWin limit state bidTx) :
    (builder.registry.propose state limit).1 =
      (others.picks (.empty limit) state).chosen.map SealedTx.bytes := by
  obtain ⟨auction, general, -⟩ := reached.eq_of_lanes lanes
  obtain ⟨proper, properGeneral, -⟩ := Config.shares_of_check reached.settled.1
  have share : bids.share = config.auctionLane.share := by rw [auction]; rfl
  have generalShare : others.settings.limits.share = config.defaultLane.share := by rw [general]; rfl
  obtain ⟨draft, middle⟩ := AuctionLane.opening_of_lose (share ▸ proper) lose
  obtain ⟨-, within, first⟩ := reached.turn lanes state limit
  have included : ¬StandardLane.Fails (.general others) (bids.opening limit state bids.pool.select.1).draft
      (bids.opening limit state bids.pool.select.1).state := by
    rw [GeneralLane.fails_iff first within, not_or, not_not]
    constructor
    · rw [draft, middle]
      have small : Draft.bytesOf (others.picks (.empty limit) state).chosen ≤ limit :=
        GeneralLane.picks_within.trans (allowance_empty_le (generalShare ▸ properGeneral) limit)
      exact Nat.not_lt.mpr ((Nat.min_le_left ..).trans ((Nat.zero_add _).trans_le small))
    · by_contra repeats
      obtain ⟨left, right, holds, holds', same, differ⟩ := reached.exists_collision lanes repeats
      exact differ (distinct left right holds holds' same)
  have proposed := propose_eq_of_not_fails lanes included
  dsimp only at proposed
  rw [proposed, draft, middle]
  rfl

/-- A block is not empty if and only if some bid can win or some transaction of the general lane is valid
in the given state and fits, and nothing that is too large is selected before it. -/
theorem propose_ne_nil_iff (reached : Reached config codec verifier funds builder)
    (lanes : builder.registry.lanes = [.auction bids, .general others])
    (distinct : ∀ first second, others.pool.Holds first → others.pool.Holds second →
      first.digest = second.digest → first.bytes = second.bytes) (state : C) (limit : Nat) :
    let allowance := (Draft.empty limit).allowance others.settings.limits.share
    (builder.registry.propose state limit).1 ≠ [] ↔
      (∃ bidTx, bids.pool.Holds bidTx ∧ bids.CanWin limit state bidTx) ∨
        ∃ before sealedTx after next, others.pool.select.1 = before ++ sealedTx :: after ∧
          (∀ other ∈ before, Draft.bytesOf [other] ≤ allowance) ∧
          Draft.bytesOf [sealedTx] ≤ allowance ∧ execute (some verifier) state sealedTx.tx = .ok next := by
  intro allowance
  by_cases wins : ∃ bidTx, bids.pool.Holds bidTx ∧ bids.CanWin limit state bidTx
  · refine iff_of_true ?_ (.inl wins)
    obtain ⟨bidTx, holds, wins⟩ := wins
    obtain ⟨winner, rest, starts, -⟩ :=
      propose_outbids reached (lanes ▸ List.mem_cons_self) holds wins
    rw [starts]
    exact List.cons_ne_nil _ _
  · obtain ⟨-, general, -⟩ := reached.eq_of_lanes lanes
    have lose : ∀ bidTx, bids.pool.Holds bidTx → ¬bids.CanWin limit state bidTx :=
      fun bidTx holds can => wins ⟨bidTx, holds, can⟩
    have accepts : ∀ sealedTx ∈ others.pool.select.1, others.accepts state sealedTx.tx = true :=
      fun sealedTx mem => reached.accepts_of_holds lanes (.of_mem_select mem) state
    have verifies : others.settings.verifier = some verifier := by rw [general]; rfl
    rw [reached.propose_of_lose lanes distinct lose, or_iff_right wins, ← verifies, ne_eq,
      List.map_eq_nil_iff]
    exact ⟨GeneralLane.reaches_of_pick accepts, GeneralLane.pick_ne_nil_of_reaches accepts⟩

end Builder

/-! ## A lane that is blocked

Two accounts have a transfer pending, and the one that pays more is larger than the block. -/

namespace Blocked

open Ledger

def large : SealedTx Tx := .ofParts (.transfer (.ofIndex 1) 0 2) [0, 0, 0]

def small : SealedTx Tx := .ofParts (.transfer (.ofIndex 2) 0 1) [1]

def codec : Codec Tx where
  encode tx :=
    match [large, small].find? fun sealedTx => sealedTx.tx = tx with
    | some sealedTx => .ok sealedTx.bytes
    | none => .error (.unwritable "not listed")
  decode bytes :=
    match [large, small].find? fun sealedTx => sealedTx.bytes = bytes with
    | some sealedTx => .ok sealedTx.tx
    | none => .error (.unreadable "not listed")

def builder : Builder State Tx :=
  [large.bytes, small.bytes].foldl (fun builder bytes =>
      { builder with registry := (builder.rules.submit builder.registry (HeldUp.state .check) bytes).2 })
    (.fresh {} codec (Rules.verifier {}) State.funds)

theorem reached : Builder.Reached {} codec (Rules.verifier {}) State.funds builder := by
  have start : Builder.Reached {} codec (Rules.verifier {}) State.funds
      (.fresh {} codec (Rules.verifier {}) State.funds) :=
    .start (Builder.ofConfig_of_check rfl _ _ _)
  exact start.submitAll (HeldUp.state .check) [large.bytes, small.bytes]

theorem exists_lanes : ∃ bids others, builder.registry.lanes = [.auction bids, .general others] ∧
    bids.pool.select.1 = [] ∧ others.pool.select.1 = [large, small] := by
  have order : builder.registry.lanes.map (fun lane => lane.select.1.map SealedTx.bytes) =
      [[], [large, small].map SealedTx.bytes] := by
    decide
  have reads : ∀ sealedTx ∈ [] ++ [large, small], codec.Reads sealedTx := by
    simp only [List.nil_append, List.forall_mem_cons]
    exact ⟨rfl, rfl, by simp⟩
  obtain ⟨bids, others, lanes, auction, general, -⟩ := reached.lanes_of_bytes [] _ order reads
  exact ⟨_, _, lanes, auction, general⟩

theorem distinct {bids : AuctionLane State Tx} {others : GeneralLane State Tx}
    (lanes : builder.registry.lanes = [.auction bids, .general others])
    (general : others.pool.select.1 = [large, small]) :
    ∀ first second, others.pool.Holds first → others.pool.Holds second →
      first.digest = second.digest → first.bytes = second.bytes := by
  intro first second holds holds' same
  obtain ⟨-, -, stocked⟩ := reached.eq_of_lanes lanes
  rw [← stocked.aligned.mem_select_iff, general] at holds holds'
  have differ : large.digest ≠ small.digest := by decide +kernel
  rcases List.mem_pair.mp holds with rfl | rfl
  · rcases List.mem_pair.mp holds' with rfl | rfl
    · rfl
    · exact absurd same differ
  · rcases List.mem_pair.mp holds' with rfl | rfl
    · exact absurd same.symm differ
    · rfl

theorem lose {bids : AuctionLane State Tx} (auction : .auction bids ∈ builder.registry.lanes)
    (selected : bids.pool.select.1 = []) (limit : Nat) (state : State) :
    ∀ bidTx, bids.pool.Holds bidTx → ¬bids.CanWin limit state bidTx := by
  intro bidTx holds
  obtain ⟨-, -, stocked⟩ := reached.auction auction
  rw [← stocked.aligned.mem_select_iff, selected] at holds
  cases holds

theorem allowance_eq {bids : AuctionLane State Tx} {others : GeneralLane State Tx}
    (lanes : builder.registry.lanes = [.auction bids, .general others]) (limit : Nat) :
    (Draft.empty limit).allowance others.settings.limits.share = limit := by
  obtain ⟨-, same, -⟩ := reached.eq_of_lanes lanes
  rw [same]
  rfl

end Blocked

namespace Builder

open Ledger Blocked in
theorem propose_ne_nil_iff_of_blocked :
    ∃ bids others, Blocked.builder.registry.lanes = [.auction bids, .general others] ∧
      others.pool.select.1 = [large, small] ∧
      let allowance := (Draft.empty 3).allowance others.settings.limits.share
      ((Blocked.builder.registry.propose (HeldUp.state .prepare) 3).1 ≠ [] ↔
        (∃ bidTx, bids.pool.Holds bidTx ∧ bids.CanWin 3 (HeldUp.state .prepare) bidTx) ∨
          ∃ before sealedTx after next, others.pool.select.1 = before ++ sealedTx :: after ∧
            (∀ other ∈ before, Draft.bytesOf [other] ≤ allowance) ∧
            Draft.bytesOf [sealedTx] ≤ allowance ∧
            execute (some (Rules.verifier {})) (HeldUp.state .prepare) sealedTx.tx = .ok next) := by
  obtain ⟨bids, others, lanes, -, general⟩ := exists_lanes
  exact ⟨bids, others, lanes, general,
    propose_ne_nil_iff Blocked.reached lanes (distinct lanes general) (HeldUp.state .prepare) 3⟩

open Ledger Blocked in
/-- In a block of two bytes the small transfer would fit, but the block stays empty. -/
theorem exists_starved :
    Reached {} Blocked.codec (Rules.verifier {}) State.funds Blocked.builder ∧
      ∃ bids others next, Blocked.builder.registry.lanes = [.auction bids, .general others] ∧
        others.pool.Holds small ∧
        execute (some (Rules.verifier {})) (HeldUp.state .prepare) small.tx = .ok next ∧
        small.size ≤ (Draft.empty 2).allowance others.settings.limits.share ∧
        (Blocked.builder.registry.propose (HeldUp.state .prepare) 2).1 = [] := by
  obtain ⟨bids, others, lanes, auction, general⟩ := exists_lanes
  have allowance := allowance_eq lanes 2
  refine ⟨Blocked.reached, bids, others, _, lanes, .of_mem_select (general ▸ by simp), rfl, ?_, ?_⟩
  · rw [allowance]
    decide
  · have accepted : others.accepts (HeldUp.state .prepare) large.tx = true :=
      Blocked.reached.accepts_of_holds lanes (.of_mem_select (general ▸ by simp)) _
    have tooLarge : 2 < addCapped 0 large.size := by decide
    rw [Blocked.reached.propose_of_lose lanes (distinct lanes general)
        (lose (lanes ▸ List.mem_cons_self) auction 2 _),
      GeneralLane.picks, general, allowance,
      GeneralLane.pick_cons_of_large accepted Draft.contains_empty tooLarge]
    rfl

end Builder

end BlockBuilder
