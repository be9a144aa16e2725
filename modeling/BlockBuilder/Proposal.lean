import BlockBuilder.Registry

namespace BlockBuilder

inductive Verdict where
  | accept
  | reject
  deriving DecidableEq, Inhabited

namespace Registry

variable {L C T : Type} [BlockLane L C T]

/-- The transactions of the next block, with the registry and the state afterwards; none if the
lanes fail together. -/
def propose (registry : Registry L) (state : C) (limit : Nat) : List Bytes × Registry L × C :=
  let attempt := registry.build state limit
  match attempt.result with
  | .ok draft => (draft.txs, attempt.lanes, attempt.state)
  | .error _ => ([], attempt.lanes, attempt.state)

def readBlock (codec : Codec T) : List Bytes → Except CodecError (List (SealedTx T))
  | [] => .ok []
  | bytes :: rest => do
    let sealedTx ← SealedTx.decode codec bytes
    let txs ← readBlock codec rest
    return sealedTx :: txs

def review [BlockState C] (registry : Registry L) (codec : Codec T) (state : C)
    (block : List Bytes) : Except LaneError Draft :=
  match readBlock codec block with
  | .error cause => .error (.codec cause)
  | .ok txs => ((registry.judge (BlockState.byteLimit state) txs).outcome state).1

def vote [BlockState C] (registry : Registry L) (codec : Codec T) (state : C)
    (block : List Bytes) : Verdict :=
  match registry.review codec state block with
  | .ok _ => .accept
  | .error _ => .reject

end Registry

end BlockBuilder
