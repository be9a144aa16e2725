import BlockBuilder.Ledger.Node
import BlockBuilder.Proofs.Builder.Carryover
import BlockBuilder.Proofs.Ledger.Reading

namespace BlockBuilder.Ledger

theorem Wire.codec_rereads : Wire.codec.Rereads := by
  intro raw tx bytes decoded encoded
  have read : Wire.decode raw = .ok tx := mapError_eq_ok_iff.mp decoded
  cases encoded
  rw [Wire.encode_of_decode read]
  exact decoded

namespace Node

variable {config : Config} {byteLimit : Nat} {rules : Rules} {node : Node} {after : State}

inductive Reached (config : Config) (byteLimit : Nat) (rules : Rules) : Node → Prop
  | start {node : Node} (created : create config byteLimit rules = .ok node) :
      Reached config byteLimit rules node
  | fund {node : Node} (reached : Reached config byteLimit rules node) (account amount : UInt64) :
      Reached config byteLimit rules (node.fund account amount)
  | submit {node : Node} (reached : Reached config byteLimit rules node) (bytes : Bytes) :
      Reached config byteLimit rules (node.submitBytes bytes).2
  | round {node : Node} {round : Round} (reached : Reached config byteLimit rules node)
      (played : node.round = some round) : Reached config byteLimit rules round.node

structure Sound (config : Config) (rules : Rules) (node : Node) : Prop where
  builder : Builder.Reached config Wire.codec rules.verifier State.funds node.builder
  byteLimit : node.state.byteLimit = node.byteLimit

def fresh (config : Config) (byteLimit : Nat) (rules : Rules) : Node where
  builder := .fresh config Wire.codec rules.verifier State.funds
  byteLimit := byteLimit
  state := .empty 1 .finalize byteLimit
  checkState := .empty 1 .check byteLimit

theorem create_eq_fresh (checked : config.check = .ok ()) :
    create config byteLimit rules = .ok (fresh config byteLimit rules) := by
  rw [create, Builder.ofConfig_of_check checked]
  rfl

theorem sound_of_create (created : create config byteLimit rules = .ok node) :
    node.Sound config rules := by
  unfold create at created
  rw [bind_eq_ok_iff] at created
  obtain ⟨builder, made, same⟩ := created
  cases same
  exact ⟨.start made, rfl⟩

theorem builder_submitBytes (node : Node) (bytes : Bytes) :
    (node.submitBytes bytes).2.builder = { node.builder with
      registry := (node.builder.rules.submit node.registry node.checkState bytes).2 } := by
  unfold submitBytes
  split
  · rename_i refused
    rw [refused]
    rfl
  · rename_i admitted
    rw [admitted]
    rfl

theorem state_submitBytes (node : Node) (bytes : Bytes) : (node.submitBytes bytes).2.state = node.state := by
  unfold submitBytes
  split <;> rfl

theorem Sound.submitBytes (sound : node.Sound config rules) (bytes : Bytes) :
    (node.submitBytes bytes).2.Sound config rules := by
  constructor
  · rw [builder_submitBytes]
    exact sound.builder.submit node.checkState bytes
  · unfold Node.submitBytes
    split <;> exact sound.byteLimit

theorem Sound.recheck (sound : node.Sound config rules) (pending : List (SealedTx Tx)) :
    (node.recheck pending).2.Sound config rules := by
  induction pending generalizing node with
  | nil => exact sound
  | cons sealedTx rest ih =>
    have submitted := sound.submitBytes sealedTx.bytes
    rw [Node.recheck]
    split
    · rename_i same
      rw [same] at submitted
      exact ih submitted
    · rename_i same
      rw [same] at submitted
      split
      · rename_i removed
        exact ih ⟨submitted.builder.remove removed, submitted.byteLimit⟩
      · exact ih submitted

theorem Sound.commitTxs (sound : node.Sound config rules) (txs : List (SealedTx Tx))
    (limited : after.byteLimit = node.byteLimit) :
    (node.commitTxs txs after).2.Sound config rules := by
  have cleared := (sound.builder.removeCommitted txs).select
  let registry := (node.registry.removeCommitted txs).2.select.2
  let state := { after with height := node.state.height + 1, phase := .finalize }
  have committed : Sound config rules
      { node.withRegistry registry with state, checkState := { state with phase := .recheck } } :=
    ⟨cleared, limited⟩
  have rechecked := committed.recheck (node.registry.removeCommitted txs).2.select.1
  exact ⟨rechecked.builder, rechecked.byteLimit⟩

theorem Sound.propose (sound : node.Sound config rules) : node.propose.2.2.Sound config rules :=
  ⟨sound.builder.propose { node.state with phase := .prepare } node.byteLimit, sound.byteLimit⟩

theorem Sound.exists_replay_propose (sound : node.Sound config rules) :
    ∃ txs, Registry.readBlock Wire.codec node.propose.1 = .ok txs ∧
      replay (some rules.verifier) { node.state with phase := .prepare } (txs.map SealedTx.tx) =
        .ok node.propose.2.1 := by
  obtain ⟨txs, draft, ok, built⟩ :=
    node.registry.built_build { node.state with phase := .prepare } node.byteLimit
  obtain ⟨bids, others, lanes⟩ := sound.builder.madeFrom.lanes
  have shared : ∀ lane ∈ node.registry.lanes, lane.settings.verifier = some rules.verifier := by
    intro lane mem
    unfold registry at mem
    rw [lanes] at mem
    rcases List.mem_pair.mp mem with rfl | rfl
    · rfl
    · rfl
  have bytes : draft.txs = txs.map SealedTx.bytes := by simpa [Draft.empty] using built.bytes
  have read : Registry.readBlock Wire.codec (txs.map SealedTx.bytes) = .ok txs :=
    Registry.readBlock_map_bytes fun sealedTx mem =>
      sound.builder.reads_of_offers Wire.codec_rereads (built.offers sealedTx mem)
  have proposed := node.registry.propose_eq_of_build { node.state with phase := .prepare }
    node.byteLimit ok
  rw [Node.propose, proposed]
  exact ⟨txs, bytes ▸ read, built.valid shared⟩

theorem Sound.byteLimit_of_propose (sound : node.Sound config rules) :
    node.propose.2.1.byteLimit = node.byteLimit := by
  obtain ⟨txs, -, valid⟩ := sound.exists_replay_propose
  apply replay_induction (fun state => state.byteLimit = node.byteLimit) _ _ valid sound.byteLimit
  intro state tx next ran kept
  have executed : rules.check state tx = .ok next := mapError_eq_ok_iff.mp ran
  rw [Rules.byteLimit_of_check executed, kept]

theorem Sound.review_propose (sound : node.Sound config rules) :
    ∃ draft, node.propose.1 = draft.txs ∧
      node.propose.2.2.registry.review Wire.codec { node.state with phase := .process } draft.txs =
        .ok draft := by
  obtain ⟨draft, ok, reviewed⟩ := sound.builder.review_of_build sound.propose.builder.madeFrom
    Wire.codec_rereads Rules.verifier_ignoresPhase State.funds_ignorePhase
    (State.same_withPhase node.state .prepare .process) rfl rfl sound.byteLimit
  have proposed := node.registry.propose_eq_of_build { node.state with phase := .prepare }
    node.byteLimit ok
  exact ⟨draft, congrArg Prod.fst proposed, reviewed⟩

theorem Sound.exists_round (sound : node.Sound config rules) :
    ∃ round, node.round = some round ∧ round.node.Sound config rules := by
  obtain ⟨draft, block, reviewed⟩ := sound.review_propose
  obtain ⟨txs, read⟩ := Registry.exists_readBlock_of_review reviewed
  have accepted : node.propose.2.2.vote node.propose.1 = .accept := by
    rw [block]
    exact Registry.vote_eq_accept_iff_review.mpr ⟨draft, reviewed⟩
  have committed : node.propose.2.2.commit node.propose.1 node.propose.2.1 =
      .ok (node.propose.2.2.commitTxs txs node.propose.2.1) := by
    rw [commit, block, read]
    rfl
  refine ⟨⟨node.propose.1, (node.propose.2.2.commitTxs txs node.propose.2.1).2⟩, ?_, ?_⟩
  · unfold Node.round
    simp only [accepted, committed]
  · exact sound.propose.commitTxs txs sound.byteLimit_of_propose

theorem Sound.fund (sound : node.Sound config rules) (account amount : UInt64) :
    (node.fund account amount).Sound config rules := ⟨sound.builder, sound.byteLimit⟩

theorem Reached.sound (reached : Reached config byteLimit rules node) : node.Sound config rules := by
  induction reached with
  | start created => exact sound_of_create created
  | fund reached account amount ih => exact ih.fund account amount
  | submit reached bytes ih => exact ih.submitBytes bytes
  | round reached played ih =>
    obtain ⟨round, played', sound⟩ := ih.exists_round
    rw [played] at played'
    cases played'
    exact sound

end Node

end BlockBuilder.Ledger

namespace BlockBuilder

/-- Builders agree on proposals: whatever was submitted, taken out and proposed before, every
builder of the configuration accepts what a builder proposes and rebuilds the same draft, provided
that the codec reads what it writes and that neither the verifier nor the funds look at the phase.
So no run of a ledger node ever comes to a block that the node refuses. -/
theorem proposals_accepted_and_rounds_played :
    (∀ {C T : Type} [Transaction T] [BlockState C] (config : Config) (codec : Codec T)
        (verifier : Verifier C T) (funds : Funds C) (builder judge : Builder C T) (state other : C)
        (limit : Nat),
      codec.Rereads → verifier.IgnoresPhase → funds.IgnorePhase →
      Builder.Reached config codec verifier funds builder →
      Builder.Reached config codec verifier funds judge →
      SameButPhase state other → (BlockState.phase state).isSubmission = false →
      (BlockState.phase other).isSubmission = false → BlockState.byteLimit state = limit →
      judge.registry.vote codec other (builder.registry.propose state limit).1 = .accept ∧
      ∃ draft, (builder.registry.build state limit).result = .ok draft ∧
        (builder.registry.propose state limit).1 = draft.txs ∧
        judge.registry.review codec other draft.txs = .ok draft) ∧
    ∀ (config : Config) (byteLimit : Nat) (rules : Ledger.Rules) (node : Ledger.Node),
      Ledger.Node.Reached config byteLimit rules node → node.round.isSome := by
  constructor
  · intro C T _ _ config codec verifier funds builder judge state other limit rereads ignores ignore
      reached judgeReached same statePhase otherPhase limited
    obtain ⟨draft, ok, reviewed⟩ := reached.review_of_build judgeReached.madeFrom rereads ignores
      ignore same statePhase otherPhase (same.byteLimit.symm.trans limited)
    have block : (builder.registry.propose state limit).1 = draft.txs := by
      rw [builder.registry.propose_eq_of_build state limit ok]
    refine ⟨?_, draft, ok, block, reviewed⟩
    rw [block]
    exact Registry.vote_eq_accept_iff_review.mpr ⟨draft, reviewed⟩
  · intro config byteLimit rules node reached
    obtain ⟨round, played, -⟩ := reached.sound.exists_round
    rw [played]
    rfl

open Ledger in
/-- The block has a bid, its bundle and a transfer, and the builder that proposed it judges it. The node
plays a round with a transfer. -/
theorem proposals_accepted_and_rounds_played_after_transfer :
    let builder := HeldUp.builder [[3], [4], [5], [6]]
    let state := HeldUp.state .prepare
    let judge : Builder State Tx :=
      { builder with registry := (builder.registry.propose state 1000).2.1 }
    let other := HeldUp.state .process
    let bytes := Wire.encode (Tx.transfer (Address.ofIndex 1) 0 3)
    let node := Node.fresh {} 1000 {}
    ((builder.registry.propose state 1000).1 = [[5], [2], [6]] ∧
      judge.registry.vote HeldUp.codec other [[5], [2], [6]] = .accept ∧
      ∃ draft, (builder.registry.build state 1000).result = .ok draft ∧
        (builder.registry.propose state 1000).1 = draft.txs ∧
        judge.registry.review HeldUp.codec other draft.txs = .ok draft) ∧
    ((node.fund 1 10).submitBytes bytes).2.round.isSome := by
  intro builder state judge other bytes node
  constructor
  · have reached : Builder.Reached {} HeldUp.codec (Rules.verifier {}) State.funds builder :=
      HeldUp.reached _
    have block : (builder.registry.propose state 1000).1 = [[5], [2], [6]] := by
      obtain ⟨top, rest, lanes, selected, pending, -⟩ := HeldUp.exists_lanes_of_four
      obtain ⟨bid, middle, after, verified, valid⟩ := HeldUp.rival_verified
      exact HeldUp.propose_eq [] [HeldUp.low, HeldUp.high] [] lanes selected (by simp) verified pending
        (by simp) valid (HeldUp.distinct_digests [6, 5, 2] (by decide) (by decide)).notMem (by decide)
    clear_value builder
    obtain ⟨accepted, reviewed⟩ := proposals_accepted_and_rounds_played.1 {} HeldUp.codec
      (Rules.verifier {}) State.funds builder judge state other 1000 HeldUp.canonical_codec.rereads
      Rules.verifier_ignoresPhase State.funds_ignorePhase reached (reached.propose state 1000)
      (State.same_withPhase state .prepare .process) rfl rfl rfl
    exact ⟨block, block ▸ accepted, reviewed⟩
  · exact proposals_accepted_and_rounds_played.2 {} 1000 {} _
      (((Node.Reached.start (Node.create_eq_fresh rfl)).fund 1 10).submit bytes)

end BlockBuilder
