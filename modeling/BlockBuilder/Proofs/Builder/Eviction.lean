import BlockBuilder.Proofs.Builder.Progress
import BlockBuilder.Proofs.Lane.Eviction

namespace BlockBuilder

variable {C T : Type} [Transaction T]

theorem Evolves.evictable {brought : List (SealedTx T)} {lanes after : List (StandardLane C T)}
    (evolves : Evolves (fun _ _ sealedTx => sealedTx ∈ brought) lanes after)
    (blank : ∀ lane ∈ lanes, ∃ policy, lane.pool = .empty policy)
    (fixed : Pool.DigestsFixSlots brought) : ∀ lane ∈ after, lane.pool.Evictable := by
  intro lane mem
  obtain ⟨position, found⟩ := List.mem_iff_getElem?.mp mem
  refine ⟨(evolves.stocked blank position found).aligned, evolves.indexes blank ?_ mem⟩
  exact fun _ _ first _ second own other => fixed first own second other

variable [BlockState C] {limit : Nat} {state : C}

theorem AuctionLane.held_evict_iff {lane : AuctionLane C T} (proper : lane.share.isProper = true)
    (evictable : lane.pool.Evictable) {slot : Slot} {priority : UInt64} {sealedTx : SealedTx T} :
    (lane.pool.settle.removeAll (lane.opening limit state lane.pool.select.1).dead).holding[slot]? =
        some (priority, sealedTx) ↔
      lane.pool.holding[slot]? = some (priority, sealedTx) ∧ ¬lane.Evicts limit state sealedTx := by
  apply evictable.held_evict_iff
  intro digest
  rw [mem_dead_opening_iff proper]
  constructor
  · rintro ⟨bidTx, mem, rejects, same⟩
    exact ⟨bidTx, .of_mem_select (List.takeWhile_subset _ mem), ⟨mem, rejects⟩, same⟩
  · rintro ⟨bidTx, -, ⟨mem, rejects⟩, same⟩
    exact ⟨bidTx, mem, rejects, same⟩

omit [BlockState C] in
theorem GeneralLane.held_evict_iff {lane : GeneralLane C T} {draft : Draft}
    (evictable : lane.pool.Evictable) {slot : Slot} {priority : UInt64} {sealedTx : SealedTx T} :
    (lane.pool.settle.removeAll (lane.picks draft state).dead).holding[slot]? =
        some (priority, sealedTx) ↔
      lane.pool.holding[slot]? = some (priority, sealedTx) ∧ ¬lane.Evicts draft state sealedTx := by
  apply evictable.held_evict_iff
  intro digest
  rw [picks, mem_dead_pick_iff]
  constructor
  · rintro ⟨before, dropped, after, size, middle, split, visits, drops, same⟩
    have held : dropped ∈ lane.pool.select.1 := split ▸ List.mem_append_right before List.mem_cons_self
    exact ⟨dropped, .of_mem_select held, ⟨before, after, size, middle, split, visits, drops⟩, same⟩
  · rintro ⟨dropped, -, ⟨before, after, size, middle, split, visits, drops⟩, same⟩
    exact ⟨before, dropped, after, size, middle, split, visits, drops, same⟩

namespace Builder

variable {config : Config} {codec : Codec T} {verifier : Verifier C T} {funds : Funds C}
  {builder : Builder C T} {top : AuctionLane C T} {others : GeneralLane C T}

def Brought (config : Config) (codec : Codec T) (verifier : Verifier C T) (funds : Funds C)
    (brought : List (SealedTx T)) (builder : Builder C T) : Prop :=
  ∃ start, ofConfig config codec verifier funds = .ok start ∧
    Evolves (fun _ _ sealedTx => sealedTx ∈ brought) start.registry.lanes builder.registry.lanes

theorem lanes_propose_eq (lanes : builder.registry.lanes = [.auction top, .general others]) (state : C)
    (limit : Nat) :
    let opened := top.opening limit state top.pool.select.1
    (builder.registry.propose state limit).2.1.lanes =
      [.auction { top with pool := top.pool.settle.removeAll opened.dead },
        .general { others with
          pool := others.pool.settle.removeAll (others.picks opened.draft opened.state).dead }] := by
  intro opened
  obtain ⟨-, final, ok, -⟩ := builder.registry.built_build state limit
  rw [builder.registry.propose_eq_of_build state limit ok]
  unfold Registry.build
  rw [lanes, Chain.build_cons]
  simp only [StandardLane.settings, AuctionLane.contribute_opening, Attempt.behind]
  rw [Chain.build_cons]
  dsimp only [StandardLane.settings, Attempt.behind]
  rw [GeneralLane.contribute_lanes_eq]
  split
  · rfl
  · rfl

theorem Brought.lanes {brought : List (SealedTx T)}
    (filled : builder.Brought config codec verifier funds brought)
    (fixed : Pool.DigestsFixSlots brought)
    (lanes : builder.registry.lanes = [.auction top, .general others]) :
    top.share.isProper = true ∧ top.pool.Evictable ∧ others.pool.Evictable := by
  obtain ⟨start, made, evolves⟩ := filled
  obtain ⟨checked, rfl⟩ := ofConfig_eq_ok_iff.mp made
  obtain ⟨proper, -⟩ := Config.shares_of_check checked
  obtain ⟨bids, rest, same, -⟩ := exists_lanes_of_evolves checked evolves
  rw [lanes] at same
  simp only [List.cons.injEq, StandardLane.auction.injEq] at same
  obtain ⟨rfl, -⟩ := same
  have evictable := evolves.evictable blank_fresh fixed
  rw [lanes] at evictable
  simp only [List.forall_mem_cons] at evictable
  exact ⟨proper, evictable.1, evictable.2.1⟩

/-- While a block is built, the lanes lose exactly what they evict at their turn, the auction lane in
the given state and the general lane after the first bid that can win. -/
theorem propose_evicts {brought : List (SealedTx T)}
    (filled : builder.Brought config codec verifier funds brought)
    (fixed : Pool.DigestsFixSlots brought)
    (lanes : builder.registry.lanes = [.auction top, .general others]) (state : C) (limit : Nat) :
    ∃ draft middle bids rest,
      top.Opens limit state draft middle ∧ draft.txs <+: (builder.registry.propose state limit).1 ∧
      (builder.registry.propose state limit).2.1.lanes =
        [.auction { top with pool := bids }, .general { others with pool := rest }] ∧
      (∀ (slot : Slot) priority sealedTx, bids.holding[slot]? = some (priority, sealedTx) ↔
        top.pool.holding[slot]? = some (priority, sealedTx) ∧ ¬top.Evicts limit state sealedTx) ∧
      ∀ (slot : Slot) priority sealedTx, rest.holding[slot]? = some (priority, sealedTx) ↔
        others.pool.holding[slot]? = some (priority, sealedTx) ∧ ¬others.Evicts draft middle sealedTx := by
  obtain ⟨proper, evictable, evictable'⟩ := filled.lanes fixed lanes
  obtain ⟨txs, -, block⟩ := Registry.exists_propose_of_auction lanes state limit
  exact ⟨_, _, _, _, AuctionLane.opens_opening proper limit state, ⟨_, block.symm⟩,
    lanes_propose_eq lanes state limit, fun _ _ _ => AuctionLane.held_evict_iff proper evictable,
    fun _ _ _ => GeneralLane.held_evict_iff evictable'⟩

open Ledger HeldUp Overdrawn in
/-- In the auction lane a transfer is tried before the winner, and one is not tried any more. In the
general lane there are a bid, a transfer that is included, one that the winner has brought along, and
one for which there is no room left. -/
theorem propose_evicts_of_crowded :
    let config : Config := { auctionLane := { share := ⟨1, 2⟩ }, defaultLane := { share := ⟨1, 4⟩ } }
    let top := { auctionLane config HeldUp.codec (Rules.verifier {}) State.funds with
      pool := (Pool.empty {}).run [.insert 3000 bundled, .insert 150 rival, .insert 100 second] }
    let others := { generalLane config HeldUp.codec (Rules.verifier {}) with
      pool := (Pool.empty {}).run
        [.insert 40 high, .insert 30 bundled, .insert 20 second, .insert 10 first] }
    let brought := [bundled, rival, second, high, first]
    let builder : Builder State Tx :=
      { fresh config HeldUp.codec (Rules.verifier {}) State.funds with
        registry := ⟨[.auction top, .general others]⟩ }
    let state := HeldUp.state .prepare
    builder.Brought config HeldUp.codec (Rules.verifier {}) State.funds brought ∧
      Pool.DigestsFixSlots brought ∧
      top.pool.select.1.map SealedTx.bytes = [bundled, rival, second].map SealedTx.bytes ∧
      others.pool.select.1.map SealedTx.bytes = [high, bundled, second, first].map SealedTx.bytes ∧
      ¬top.CanWin 4 state bundled ∧ top.CanWin 4 state rival ∧
      ∃ draft middle bids rest,
        top.Opens 4 state draft middle ∧ draft.txs <+: (builder.registry.propose state 4).1 ∧
        (builder.registry.propose state 4).2.1.lanes =
          [.auction { top with pool := bids }, .general { others with pool := rest }] ∧
        (∀ (slot : Slot) priority sealedTx, bids.holding[slot]? = some (priority, sealedTx) ↔
          top.pool.holding[slot]? = some (priority, sealedTx) ∧ ¬top.Evicts 4 state sealedTx) ∧
        ∀ (slot : Slot) priority sealedTx, rest.holding[slot]? = some (priority, sealedTx) ↔
          others.pool.holding[slot]? = some (priority, sealedTx) ∧ ¬others.Evicts draft middle sealedTx := by
  intro config top others brought builder state
  have filled : builder.Brought config HeldUp.codec (Rules.verifier {}) State.funds brought := by
    refine ⟨_, ofConfig_of_check (by decide) _ _ _, .cons ?_ (.change ?_)⟩
    · intro priority sealedTx mem
      simp only [List.mem_cons, Pool.Operation.insert.injEq, List.not_mem_nil, or_false] at mem
      rcases mem with ⟨-, rfl⟩ | ⟨-, rfl⟩ | ⟨-, rfl⟩ <;> simp [brought]
    · intro priority sealedTx mem
      simp only [List.mem_cons, Pool.Operation.insert.injEq, List.not_mem_nil, or_false] at mem
      rcases mem with ⟨-, rfl⟩ | ⟨-, rfl⟩ | ⟨-, rfl⟩ | ⟨-, rfl⟩ <;> simp [brought]
  have fixed : Pool.DigestsFixSlots brought := by decide +kernel
  have loses : ¬top.CanWin 4 state bundled := by decide
  have wins : top.CanWin 4 state rival := by decide +kernel
  exact ⟨filled, fixed, by decide, by decide, loses, wins,
    propose_evicts filled fixed rfl state 4⟩

end Builder

end BlockBuilder
