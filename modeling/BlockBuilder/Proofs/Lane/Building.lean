import BlockBuilder.Proofs.Builder.Lanes
import BlockBuilder.Proofs.Lane.Choice
import BlockBuilder.Proofs.Lane.Contribution
import BlockBuilder.Proofs.Lane.Pricing
import BlockBuilder.Proposal

namespace BlockBuilder

variable {C T : Type} [Transaction T] [BlockState C]

namespace Chain

variable {lane : StandardLane C T} {lanes rest : List (StandardLane C T)}
  {draft final : Draft} {state after : C} {txs : List (SealedTx T)}

/-- What the lanes of a chain gave to a block in turn, with the draft and the state before and
after it. -/
inductive Built : List (StandardLane C T) → Draft → C → List (SealedTx T) → Draft → C → Prop
  | nil {draft : Draft} {state : C} : Built [] draft state [] draft state
  | cons {lane : StandardLane C T} {rest : List (StandardLane C T)} {draft extended final : Draft}
      {state middle after : C} {own others : List (SealedTx T)} (gives : lane.Gives state own middle)
      (added : draft.add (BlockLane.name lane) (BlockLane.share lane) own = .ok extended)
      (later : Built rest extended middle others final after) :
      Built (lane :: rest) draft state (own ++ others) final after

theorem Built.pass (later : Built rest draft state txs final after) :
    Built (lane :: rest) draft state txs final after :=
  .cons .nothing Draft.add_nil later

theorem Built.nothing : Built lanes draft state [] draft state := by
  induction lanes with
  | nil => exact .nil
  | cons lane rest ih => exact ih.pass

theorem built_buildUpTo (count : Nat) (lanes : List (StandardLane C T)) (draft : Draft) (state : C) :
    ∃ txs final, (buildUpTo count lanes draft state).result = .ok final ∧
      Built lanes draft state txs final (buildUpTo count lanes draft state).state := by
  induction count generalizing lanes draft state with
  | zero => exact ⟨[], draft, rfl, .nothing⟩
  | succ count ih =>
    cases lanes with
    | nil => exact ⟨[], draft, rfl, .nil⟩
    | cons lane rest =>
      rw [buildUpTo]
      cases result : (BlockLane.contribute lane draft (draft.allowance (BlockLane.share lane))
          state).result with
      | error cause =>
        obtain ⟨txs, final, ok, built⟩ := ih rest draft state
        exact ⟨txs, final, ok, built.pass⟩
      | ok extended =>
        obtain ⟨own, gives, added⟩ := StandardLane.contribute_gives result
        -- the later lanes never fail, so what this lane gave is never taken back
        have ratified (lane : StandardLane C T) : BlockLane.ratify lane = .ok () := rfl
        obtain ⟨others, final, ok, later⟩ := ih rest extended
          (BlockLane.contribute lane draft (draft.allowance (BlockLane.share lane)) state).state
        simp only [ok, ratified]
        exact ⟨own ++ others, final, ok, .cons gives added later⟩

theorem Built.bytes (built : Built lanes draft state txs final after) :
    final.txs = draft.txs ++ txs.map SealedTx.bytes := by
  induction built with
  | nil => simp
  | cons gives added later ih => rw [ih, Draft.txs_of_add added, List.map_append, List.append_assoc]

theorem Built.limit (built : Built lanes draft state txs final after) :
    final.limit = draft.limit := by
  induction built with
  | nil => rfl
  | cons gives added later ih => rw [ih, Draft.limit_of_add added]

theorem Built.total (capped : draft.total ≤ maxCount)
    (built : Built lanes draft state txs final after) :
    final.total = min (draft.total + totalSize txs) maxCount := by
  induction built with
  | nil => simp [capped]
  | cons gives added later ih =>
    have total := Draft.total_of_add_capped capped added
    rw [ih (by omega), total, totalSize_append]
    omega

theorem Built.total_le_limit (within : draft.total ≤ draft.limit)
    (built : Built lanes draft state txs final after) : final.total ≤ final.limit := by
  induction built with
  | nil => exact within
  | cons gives added later ih => exact ih (Draft.total_le_limit_of_add within added)

theorem Built.offers (built : Built lanes draft state txs final after) :
    ∀ sealedTx ∈ txs, ∃ lane ∈ lanes, lane.Offers sealedTx := by
  induction built with
  | nil => simp
  | @cons lane _ _ _ _ _ _ _ _ _ gives _ _ ih =>
    intro sealedTx mem
    rcases List.mem_append.mp mem with own | other
    · exact ⟨lane, List.mem_cons_self, gives.offers sealedTx own⟩
    · obtain ⟨other, listed, offers⟩ := ih sealedTx other
      exact ⟨other, List.mem_cons_of_mem _ listed, offers⟩

theorem Built.valid {verifier : Option (Verifier C T)}
    (shared : ∀ lane ∈ lanes, lane.settings.verifier = verifier)
    (built : Built lanes draft state txs final after) :
    replay verifier state (txs.map SealedTx.tx) = .ok after := by
  induction built with
  | nil => rfl
  | cons gives added later ih =>
    obtain ⟨own, others⟩ := List.forall_mem_cons.mp shared
    rw [List.map_append, replay_append_eq_ok]
    exact ⟨_, own ▸ gives.valid, ih others⟩

theorem build_nil : build ([] : List (StandardLane C T)) draft state = ⟨.ok draft, [], state⟩ := rfl

theorem build_cons (lane : StandardLane C T) (rest : List (StandardLane C T)) (draft : Draft)
    (state : C) :
    build (lane :: rest) draft state =
      let own := lane.contribute draft (draft.allowance lane.settings.limits.share) state
      match own.result with
      | .ok extended => (build rest extended own.state).behind own.lanes
      | .error _ => (build rest draft state).behind own.lanes := by
  have ratified (lane : StandardLane C T) : BlockLane.ratify lane = .ok () := rfl
  have contributed : BlockLane.contribute lane draft (draft.allowance (BlockLane.share lane)) state =
      lane.contribute draft (draft.allowance lane.settings.limits.share) state := rfl
  rw [build, List.length_cons, buildUpTo]
  simp only [contributed]
  split
  · rename_i refused
    simp only [refused, build]
  · rename_i extended given
    -- the later lanes never fail together, so nothing is taken back
    obtain ⟨txs, final, ok, -⟩ := built_buildUpTo rest.length rest extended
      (lane.contribute draft (draft.allowance lane.settings.limits.share) state).state
    simp only [given, ok, ratified, build]

end Chain

theorem GeneralLane.contribute_result_eq {lane : GeneralLane C T} {draft : Draft} {state : C} :
    ((StandardLane.general lane).contribute draft (draft.allowance lane.settings.limits.share)
      state).result =
        draft.add lane.name lane.settings.limits.share (lane.picks draft state).chosen :=
  congrArg Attempt.result (lane.contribute_eq ..)

theorem AuctionLane.contribute_opening (lane : AuctionLane C T) (limit : Nat) (state : C) :
    (StandardLane.auction lane).contribute (.empty limit)
        ((Draft.empty limit).allowance lane.settings.limits.share) state =
      let choice := lane.opening limit state lane.pool.select.1
      ⟨.ok choice.draft, .auction { lane with pool := lane.pool.settle.removeAll choice.dead },
        choice.state⟩ :=
  congrArg (StandardLane.wrap .auction) (lane.contribute_eq ..)

namespace Registry

variable (registry : Registry (StandardLane C T)) (state : C) (limit : Nat)

theorem built_build :
    ∃ txs draft, (registry.build state limit).result = .ok draft ∧
      Chain.Built registry.lanes (.empty limit) state txs draft (registry.build state limit).state :=
  Chain.built_buildUpTo ..

theorem propose_eq_of_build {draft : Draft} (ok : (registry.build state limit).result = .ok draft) :
    registry.propose state limit =
      (draft.txs, (registry.build state limit).lanes, (registry.build state limit).state) := by
  simp only [propose, ok]

theorem sum_length_build_le {draft : Draft} (below : limit < maxCount)
    (ok : (registry.build state limit).result = .ok draft) :
    (draft.txs.map List.length).sum ≤ limit := by
  obtain ⟨txs, final, built, steps⟩ := registry.built_build state limit
  cases built.symm.trans ok
  have total := steps.total (Nat.zero_le _)
  have within := steps.total_le_limit (Nat.zero_le _)
  rw [total, steps.limit] at within
  rw [steps.bytes, Draft.empty, List.nil_append, ← totalSize_eq_sum_length]
  simp only [Draft.empty] at within
  omega

theorem build_result_of_pair {bids : AuctionLane C T} {others : GeneralLane C T}
    (lanes : registry.lanes = [.auction bids, .general others]) :
    let opened := bids.opening limit state bids.pool.select.1
    (registry.build state limit).result =
      match opened.draft.add others.name others.settings.limits.share
          (others.picks opened.draft opened.state).chosen with
      | .ok extended => .ok extended
      | .error _ => .ok opened.draft := by
  intro opened
  unfold Registry.build
  rw [lanes, Chain.build_cons]
  simp only [StandardLane.settings, AuctionLane.contribute_opening, Attempt.behind]
  rw [Chain.build_cons]
  simp only [StandardLane.settings, GeneralLane.contribute_result_eq, Chain.build_nil, Attempt.behind]
  cases opened.draft.add others.name others.settings.limits.share
    (others.picks opened.draft opened.state).chosen <;> rfl

/-- Building leaves the state that its block leads to, transaction by transaction, and nothing
else: what was tried and dropped on the way changes nothing. -/
theorem state_build_eq_replay (verifier : Option (Verifier C T))
    (shared : ∀ lane ∈ registry.lanes, lane.settings.verifier = verifier) :
    ∃ (draft : Draft) (txs : List (SealedTx T)), (registry.build state limit).result = .ok draft ∧
      draft.txs = txs.map SealedTx.bytes ∧
      (∀ sealedTx ∈ txs, ∃ lane ∈ registry.lanes, lane.Offers sealedTx) ∧
      replay verifier state (txs.map SealedTx.tx) = .ok (registry.build state limit).state := by
  obtain ⟨txs, draft, ok, built⟩ := registry.built_build state limit
  exact ⟨draft, txs, ok, built.bytes, built.offers, built.valid shared⟩

end Registry

namespace HeldUp

open Ledger

def lane (pool : Pool Tx UInt64) : AuctionLane State Tx :=
  { Builder.auctionLane {} codec (Rules.verifier {}) State.funds with pool }

def general (pool : Pool Tx UInt64) : GeneralLane State Tx :=
  { Builder.generalLane {} codec (Rules.verifier {}) with pool }

theorem canWin_lane_iff (pool : Pool Tx UInt64) (bidTx : SealedTx Tx) :
    (lane pool).CanWin 1000 (state .prepare) bidTx ↔
      (lane (.empty {})).CanWin 1000 (state .prepare) bidTx := by
  have same : (lane pool).verifyBid bidTx = (lane (.empty {})).verifyBid bidTx :=
    (lane (.empty {})).verifyBid_withPool pool bidTx
  unfold AuctionLane.CanWin
  rw [same]
  rfl

theorem propose_eq {registry : Registry (StandardLane State Tx)} {bids others : Pool Tx UInt64}
    {winner entry : SealedTx Tx} {bid : Bid} {middle after : State} (before rest intruders : List (SealedTx Tx))
    (lanes : registry.lanes = [.auction (lane bids), .general (general others)])
    (order : bids.select.1 = before ++ winner :: rest)
    (lose : ∀ bidTx ∈ before, ¬(lane (.empty {})).CanWin 1000 (state .prepare) bidTx)
    (verified : ((lane (.empty {})).verifyBid winner).outcome (state .prepare) =
      (.ok (bid, [entry]), middle))
    (pending : others.select.1 = intruders ++ [paid])
    (foreign : ∀ sealedTx ∈ intruders, Transaction.isBid sealedTx.tx = true)
    (valid : execute (some (Rules.verifier {})) middle paid.tx = .ok after)
    (new : paid.digest ∉ [winner, entry].map SealedTx.digest) (small : totalSize [winner, entry] ≤ 200) :
    (registry.propose (state .prepare) 1000).1 = [winner.bytes, entry.bytes, paid.bytes] := by
  have bytes : Draft.bytesOf [winner, entry] = totalSize [winner, entry] :=
    Draft.bytesOf_eq_totalSize (small.trans (by decide))
  have fits : Draft.bytesOf [winner, entry] ≤ (Draft.empty 1000).allowance (lane bids).share := by
    have share : (lane bids).share = ⟨1, 5⟩ := rfl
    exact (bytes.trans_le small).trans (share ▸ by decide)
  rw [← AuctionLane.verifyBid_withPool _ bids] at verified
  obtain ⟨dead, opened⟩ := AuctionLane.exists_opening_of_verified rest rfl
    (fun bidTx mem => (canWin_lane_iff bids bidTx).not.mpr (lose bidTx mem)) verified fits
  rw [← order] at opened
  generalize appended : (Draft.empty 1000).append AuctionLane.name [winner, entry] = draft at opened
  have limit : draft.limit = 1000 := appended ▸ rfl
  have total : draft.total ≤ 200 := by
    rw [← appended]
    exact (Nat.min_le_left ..).trans ((Nat.zero_add _).trans_le (bytes.trans_le small))
  have fresh : ∀ sealedTx ∈ [paid], draft.contains sealedTx.digest = false := by
    simpa [← appended] using new
  have allowed : 1 ≤ draft.allowance (general others).settings.limits.share := by
    have free : draft.allowance (general others).settings.limits.share = draft.limit - draft.total := rfl
    omega
  have accepts (state : State) (tx : Tx) :
      (general others).accepts state tx = !Transaction.isBid tx := by
    simp [GeneralLane.accepts, general, Builder.generalLane]
  have chosen : ((general others).picks draft middle).chosen = [paid] := by
    have rejected (state : State) (sealedTx : SealedTx Tx) (mem : sealedTx ∈ intruders) :
        (general others).accepts state sealedTx.tx = false := by
      rw [accepts, foreign sealedTx mem]
      rfl
    have taken (state : State) : ∀ sealedTx ∈ [paid], (general others).accepts state sealedTx.tx = true :=
      List.forall_mem_singleton.mpr (accepts state paid.tx)
    have order : (general others).pool.select.1 = intruders ++ [paid] := pending
    rw [GeneralLane.picks, order, GeneralLane.chosen_pick_append rejected,
      GeneralLane.pick_eq_of_valid taken fresh allowed (replay_cons_eq_ok.mpr ⟨after, valid, rfl⟩)]
  obtain ⟨extended, added⟩ : ∃ extended, draft.add GeneralLane.defaultName
      (general others).settings.limits.share [paid] = .ok extended := by
    have only : totalSize [paid] = 1 := rfl
    have counted : 201 ≤ maxCount := by decide
    refine (Draft.exists_add_iff ?_ (by omega) (by omega)).mpr ⟨by simp, fresh, ?_, by omega⟩
    · rw [← appended]
      rfl
    · exact (Draft.le_allowance_iff (by decide)).mp allowed
  have result := registry.build_result_of_pair (state .prepare) 1000 lanes
  have opening : (lane bids).opening 1000 (state .prepare) (lane bids).pool.select.1 =
      ⟨dead, draft, middle⟩ := opened
  have name : (general others).name = GeneralLane.defaultName := rfl
  simp only [opening, chosen, name, added] at result
  rw [registry.propose_eq_of_build _ _ result, Draft.txs_of_add added, ← appended]
  rfl

set_option maxRecDepth 8000 in
theorem low_verified : ∀ phase ∈ [Phase.prepare, .process], ∃ bid middle after,
    ((lane (.empty {})).verifyBid low).outcome (state phase) = (.ok (bid, [bundled]), middle) ∧
      execute (some (Rules.verifier {})) middle paid.tx = .ok after := by
  intro phase building
  rcases List.mem_pair.mp building with rfl | rfl
  · exact ⟨_, _, _, rfl, rfl⟩
  · exact ⟨_, _, _, rfl, rfl⟩

end HeldUp

namespace Registry

open Ledger HeldUp in
/-- The bundle of the first bid fails halfway and leaves nothing; the second bid comes into the block. -/
theorem state_build_eq_replay_of_ledger_lanes :
    let bids := ((Pool.empty {}).place 300 (.ofIndex 2) 0 halfway).place 100 (.ofIndex 1) 0 low
    let registry : Registry (StandardLane Ledger.State Tx) :=
      ⟨[.auction (HeldUp.lane bids), .general (HeldUp.general ((Pool.empty {}).place 3 (.ofIndex 2) 6 paid))]⟩
    (registry.propose (HeldUp.state .prepare) 1000).1 = [[3], [0], [6]] ∧
    ∃ (draft : Draft) (txs : List (SealedTx Tx)),
      (registry.build (HeldUp.state .prepare) 1000).result = .ok draft ∧
      draft.txs = txs.map SealedTx.bytes ∧
      (∀ sealedTx ∈ txs, ∃ lane ∈ registry.lanes, lane.Offers sealedTx) ∧
      replay (some (Rules.verifier {})) (HeldUp.state .prepare) (txs.map SealedTx.tx) =
        .ok (registry.build (HeldUp.state .prepare) 1000).state := by
  intro bids registry
  refine ⟨?_, registry.state_build_eq_replay _ _ _ ?_⟩
  · obtain ⟨bid, middle, after, verified, valid⟩ := low_verified .prepare (by decide)
    have new : paid.digest ∉ [low, bundled].map SealedTx.digest :=
      (distinct_digests [6, 3, 0] (by decide) (by decide)).notMem
    exact propose_eq [halfway] [] [] rfl rfl (by decide +kernel) verified rfl (by simp) valid new (by decide)
  · intro lane mem
    rcases List.mem_pair.mp mem with rfl | rfl <;> rfl

end Registry

end BlockBuilder
