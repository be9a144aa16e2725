import Mathlib.Data.List.Forall2
import BlockBuilder.Proofs.Ledger.Rounds

namespace BlockBuilder.Ledger

def sequencesOf (sender : Address) (txs : List Tx) : List Nat :=
  (txs.filter fun tx => Transaction.sender? tx = some sender).map fun tx => tx.sequence.toNat

variable {sender : Address} {state after : State} {rules : Rules} {tx : Tx} {txs others : List Tx}

theorem sequencesOf_append :
    sequencesOf sender (txs ++ others) = sequencesOf sender txs ++ sequencesOf sender others := by
  simp [sequencesOf]

theorem sequencesOf_single :
    sequencesOf sender [tx] = if tx.signers.head? = some sender then [tx.sequence.toNat] else [] := by
  by_cases own : tx.signers.head? = some sender
  · simp [sequencesOf, Transaction.sender?, Transaction.signers, own]
  · simp [sequencesOf, Transaction.sender?, Transaction.signers, own]

theorem Rules.nextSequence_of_check (executed : rules.check state tx = .ok after) (account : Address) :
    after.nextSequence account =
      if tx.signers.head? = some account then max tx.sequence (state.nextSequence account) + 1
      else state.nextSequence account := by
  obtain ⟨sender, charged, first, -, -, -, paid, rfl⟩ := check_eq_ok_iff.mp executed
  have kept : charged.sequences = state.sequences := by rw [eq_of_charge paid]
  by_cases own : sender = account
  · subst own
    simp [State.nextSequence, first, kept]
  · simp [State.nextSequence, first, kept, own, Std.TreeMap.getD_insert]

/-- The state is what executing the transactions in sequence leads to: every sender's carry the numbers
from zero on, and the state expects the next. It holds of a sender as long as these numbers fit. -/
def InSequence (state : State) (txs : List Tx) : Prop :=
  ∀ sender, (sequencesOf sender txs).length < UInt64.size →
    sequencesOf sender txs = List.range (sequencesOf sender txs).length ∧
      (state.nextSequence sender).toNat = (sequencesOf sender txs).length

theorem InSequence.execute (before : InSequence state txs) (strict : rules.strict = true)
    (executed : rules.check state tx = .ok after) : InSequence after (txs ++ [tx]) := by
  intro sender few
  have next := Rules.nextSequence_of_check executed sender
  obtain ⟨_, _, first, -, -, expected, -, -⟩ := Rules.check_eq_ok_iff.mp executed
  rw [sequencesOf_append, sequencesOf_single] at few ⊢
  by_cases own : tx.signers.head? = some sender
  · cases first.symm.trans own
    rw [if_pos own, List.length_append, List.length_singleton] at few ⊢
    obtain ⟨counted, reached⟩ := before sender (by omega)
    have here : tx.sequence.toNat = (sequencesOf sender txs).length := by
      rw [expected strict, reached]
    refine ⟨?_, ?_⟩
    · rw [List.range_succ, ← counted, here]
    · have larger : max tx.sequence (state.nextSequence sender) = state.nextSequence sender := by
        rw [expected strict]
        exact ite_self _
      rw [next, if_pos own, larger, UInt64.toNat_add, reached]
      exact Nat.mod_eq_of_lt few
  · rw [if_neg own, List.append_nil] at few ⊢
    rw [next, if_neg own]
    exact before sender few

theorem InSequence.replay (before : InSequence state txs) (strict : rules.strict = true)
    (ran : replay (some rules.verifier) state others = .ok after) : InSequence after (txs ++ others) := by
  induction others generalizing state txs with
  | nil =>
    cases ran
    rwa [List.append_nil]
  | cons tx rest ih =>
    obtain ⟨middle, first, ran⟩ := replay_cons_eq_ok.mp ran
    have executed : rules.check state tx = .ok middle := mapError_eq_ok_iff.mp first
    have extended := ih (before.execute strict executed) ran
    rwa [List.append_assoc] at extended

namespace Node

variable {node : Node} {round : Round}

theorem state_recheck (node : Node) (pending : List (SealedTx Tx)) :
    (node.recheck pending).2.state = node.state := by
  induction pending generalizing node with
  | nil => rfl
  | cons sealedTx rest ih =>
    have submitted := node.state_submitBytes sealedTx.bytes
    rw [recheck]
    split
    · rename_i same
      rw [ih, ← submitted, same]
    · rename_i same
      rw [same] at submitted
      split
      · exact (ih _).trans submitted
      · exact (ih _).trans submitted

theorem state_commitTxs (node : Node) (txs : List (SealedTx Tx)) (after : State) :
    (node.commitTxs txs after).2.state =
      { after with height := node.state.height + 1, phase := .finalize } := by
  unfold commitTxs
  exact state_recheck ..

theorem round_eq_some (played : node.round = some round) :
    round.block = node.propose.1 ∧
      round.node.state =
        { node.propose.2.1 with height := node.state.height + 1, phase := .finalize } := by
  unfold Node.round at played
  have kept : node.propose.2.2.state = node.state := rfl
  dsimp only at played
  split at played
  · rename_i verdict committed
    cases played
    obtain ⟨txs, -, same⟩ := map_eq_ok_iff.mp committed
    refine ⟨rfl, ?_⟩
    have state := node.propose.2.2.state_commitTxs txs node.propose.2.1
    rwa [same, kept] at state
  · cases played

inductive Committed (config : Config) (byteLimit : Nat) (rules : Rules) : List Bytes → Node → Prop
  | start {node : Node} (created : create config byteLimit rules = .ok node) :
      Committed config byteLimit rules [] node
  | fund {ledger : List Bytes} {node : Node} (committed : Committed config byteLimit rules ledger node)
      (account amount : UInt64) : Committed config byteLimit rules ledger (node.fund account amount)
  | submit {ledger : List Bytes} {node : Node} (committed : Committed config byteLimit rules ledger node)
      (bytes : Bytes) : Committed config byteLimit rules ledger (node.submitBytes bytes).2
  | round {ledger : List Bytes} {node : Node} {round : Round}
      (committed : Committed config byteLimit rules ledger node) (played : node.round = some round) :
      Committed config byteLimit rules (ledger ++ round.block) round.node

variable {config : Config} {byteLimit : Nat} {ledger : List Bytes}

theorem Committed.reached (committed : Committed config byteLimit rules ledger node) :
    Reached config byteLimit rules node := by
  induction committed with
  | start created => exact .start created
  | fund _ account amount ih => exact ih.fund account amount
  | submit _ bytes ih => exact ih.submit bytes
  | round _ played ih => exact ih.round played

theorem Committed.inSequence (committed : Committed config byteLimit rules ledger node)
    (strict : rules.strict = true) :
    ∃ txs : List (SealedTx Tx), Registry.readBlock Wire.codec ledger = .ok txs ∧
      InSequence node.state (txs.map SealedTx.tx) := by
  induction committed with
  | start created =>
    unfold create at created
    rw [bind_eq_ok_iff] at created
    obtain ⟨builder, -, same⟩ := created
    cases same
    refine ⟨[], rfl, fun sender _ => ⟨rfl, ?_⟩⟩
    simp [State.nextSequence, State.empty, sequencesOf]
  | fund _ account amount ih => exact ih
  | submit _ bytes ih =>
    rw [state_submitBytes]
    exact ih
  | @round ledger node round committed played ih =>
    obtain ⟨txs, read, inSequence⟩ := ih
    obtain ⟨others, readBlock, valid⟩ := committed.reached.sound.exists_replay_propose
    obtain ⟨block, state⟩ := round_eq_some played
    -- neither the phase nor the height matters to what is expected of senders
    have start : InSequence { node.state with phase := .prepare } (txs.map SealedTx.tx) := inSequence
    refine ⟨txs ++ others, ?_, ?_⟩
    · rw [Registry.readBlock_eq_ok_iff] at read readBlock ⊢
      rw [block]
      exact List.rel_append read readBlock
    · have extended := start.replay strict valid
      rw [List.map_append, state]
      exact extended

/-- Where sequences are strict, the sequences of a sender's transactions in all committed blocks
together are 0, 1, 2 and so on, as many as the committed state expects it to have sent. -/
theorem sequences_of_committed (committed : Committed config byteLimit rules ledger node)
    (strict : rules.strict = true) :
    ∃ txs : List (SealedTx Tx), Registry.readBlock Wire.codec ledger = .ok txs ∧
      ∀ sender, (sequencesOf sender (txs.map SealedTx.tx)).length < UInt64.size →
        sequencesOf sender (txs.map SealedTx.tx) =
          List.range (node.state.nextSequence sender).toNat := by
  obtain ⟨txs, read, inSequence⟩ := committed.inSequence strict
  refine ⟨txs, read, fun sender few => ?_⟩
  obtain ⟨counted, reached⟩ := inSequence sender few
  rw [reached]
  exact counted

theorem sequences_of_committed_after_rounds :
    let rules : Rules := { strict := true }
    let transfer (sequence : UInt64) := Wire.encode (Tx.transfer (.ofIndex 1) sequence 3)
    let builder := Builder.fresh {} Wire.codec rules.verifier State.funds
    let state := State.empty 1 .finalize 1000
    let node : Node := ⟨builder, 1000, state, { state with phase := .check }⟩
    ∃ first second, ((node.fund 1 10).submitBytes (transfer 0)).2.round = some first ∧
      (first.node.submitBytes (transfer 1)).2.round = some second ∧
      ∃ txs, Registry.readBlock Wire.codec (first.block ++ second.block) = .ok txs ∧
        ∀ sender, (sequencesOf sender (txs.map SealedTx.tx)).length < UInt64.size →
          sequencesOf sender (txs.map SealedTx.tx) =
            List.range (second.node.state.nextSequence sender).toNat := by
  intro rules transfer builder state node
  have made : Builder.ofConfig {} Wire.codec rules.verifier State.funds = .ok builder :=
    Builder.ofConfig_of_check rfl Wire.codec rules.verifier State.funds
  have created : create {} 1000 rules = .ok node := by
    rw [create, made]
    rfl
  have before : Committed {} 1000 rules [] ((node.fund 1 10).submitBytes (transfer 0)).2 :=
    ((Committed.start created).fund 1 10).submit (transfer 0)
  obtain ⟨first, played, -⟩ := before.reached.sound.exists_round
  have between := (before.round played).submit (transfer 1)
  obtain ⟨second, playedNext, -⟩ := between.reached.sound.exists_round
  exact ⟨first, second, played, playedNext, sequences_of_committed (between.round playedNext) rfl⟩

end Node

end BlockBuilder.Ledger
