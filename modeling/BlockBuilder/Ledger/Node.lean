import BlockBuilder.Builder
import BlockBuilder.Ledger.State
import BlockBuilder.Ledger.Wire

namespace BlockBuilder.Ledger

structure Node where
  builder : Builder State Tx
  byteLimit : Nat
  state : State
  /-- The state that submissions are checked against. -/
  checkState : State

namespace Node

def create (config : Config) (byteLimit : Nat) (rules : Rules) : Except LaneError Node := do
  let builder ← Builder.ofConfig config Wire.codec rules.verifier State.funds
  let state := State.empty 1 .finalize byteLimit
  return ⟨builder, byteLimit, state, { state with phase := .check }⟩

def height (node : Node) : UInt64 := node.state.height

def registry (node : Node) : Registry (StandardLane State Tx) := node.builder.registry

def withRegistry (node : Node) (registry : Registry (StandardLane State Tx)) : Node :=
  { node with builder := { node.builder with registry } }

def fund (node : Node) (account amount : UInt64) : Node :=
  let owner := Address.ofIndex account
  { node with
    state := node.state.setBalance owner ⟨denom, amount⟩
    checkState := node.checkState.setBalance owner ⟨denom, amount⟩ }

def submitBytes (node : Node) (bytes : Bytes) : Except AdmissionError Digest × Node :=
  match node.builder.rules.submit node.registry node.checkState bytes with
  | (.error cause, registry) => (.error cause, node.withRegistry registry)
  | (.ok (digest, checkState), registry) =>
    (.ok digest, { node.withRegistry registry with checkState })

def submit (node : Node) (tx : Tx) : Except AdmissionError Digest × Node :=
  node.submitBytes (Wire.encode tx)

def submitAll : Node → List Tx → Nat × Node
  | node, [] => (0, node)
  | node, tx :: rest =>
    match node.submit tx with
    | (.ok _, node) =>
      let (count, node) := node.submitAll rest
      (count + 1, node)
    | (.error _, node) => node.submitAll rest

def propose (node : Node) : List Bytes × State × Node :=
  let (block, registry, state) :=
    node.registry.propose { node.state with phase := .prepare } node.byteLimit
  (block, state, node.withRegistry registry)

def vote (node : Node) (block : List Bytes) : Verdict :=
  node.registry.vote Wire.codec { node.state with phase := .process } block

def recheck : Node → List (SealedTx Tx) → Nat × Node
  | node, [] => (0, node)
  | node, sealedTx :: rest =>
    match node.submitBytes sealedTx.bytes with
    | (.ok _, node) => node.recheck rest
    | (.error _, node) =>
      match node.registry.remove sealedTx.digest with
      | .ok registry =>
        let (count, node) := (node.withRegistry registry).recheck rest
        (count + 1, node)
      | .error _ => node.recheck rest

def commitTxs (node : Node) (txs : List (SealedTx Tx)) (after : State) : Nat × Node :=
  let (_, registry) := node.registry.removeCommitted txs
  let state := { after with height := node.state.height + 1, phase := .finalize }
  let (pending, registry) := registry.select
  let (evicted, node) :=
    ({ node.withRegistry registry with
      state, checkState := { state with phase := .recheck } } : Node).recheck pending
  (evicted, { node with checkState := { node.checkState with phase := .check } })

def commit (node : Node) (block : List Bytes) (after : State) : Except CodecError (Nat × Node) :=
  (Registry.readBlock Wire.codec block).map fun txs => node.commitTxs txs after

structure Round where
  block : List Bytes
  node : Node

/-- Builds a block, has the node itself judge it, and commits it; nothing if the node refuses its
own block. -/
def round (node : Node) : Option Round :=
  let (block, after, node) := node.propose
  match node.vote block, node.commit block after with
  | .accept, .ok (_, node) => some ⟨block, node⟩
  | _, _ => none

end Node

end BlockBuilder.Ledger
