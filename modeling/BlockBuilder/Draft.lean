import Std.Data.HashSet
import BlockBuilder.Lane.Error

/-!
# Drafts

A draft is a block under construction: the transactions chosen so far in block order, and what is
needed to keep the block within its limits. `add` appends the contribution of a lane. It refuses a
second contribution of one lane, a transaction that is already there, more bytes than the lane's
share allows and more bytes than the block allows, in this order; a refused contribution and an
empty one leave the draft as it was.
-/
namespace BlockBuilder

structure Contribution where
  count : Nat
  bytes : Nat
  deriving DecidableEq, Inhabited

structure Draft where
  txs : List Bytes := []
  digests : Std.HashSet Digest := ∅
  total : Nat := 0
  limit : Nat
  contributions : List (String × Contribution) := []

namespace Draft

def empty (limit : Nat) : Draft := { limit }

def free (draft : Draft) : Nat := draft.limit - draft.total

def contains (draft : Draft) (digest : Digest) : Bool := draft.digests.contains digest

def contribution? (draft : Draft) (lane : String) : Option Contribution :=
  draft.contributions.lookup lane

/-- The bytes that a lane of the given share may contribute; without a share it may use what is
left of the block. -/
def allowance (draft : Draft) (share : Share) : Nat :=
  if share.isZero then draft.free else share.portion draft.limit

variable {T : Type}

def bytesOf (txs : List (SealedTx T)) : Nat :=
  txs.foldl (fun size sealedTx => addCapped size sealedTx.size) 0

def firstRepeat? : Std.HashSet Digest → List (SealedTx T) → Option Digest
  | _, [] => none
  | seen, sealedTx :: rest =>
    if seen.contains sealedTx.digest then some sealedTx.digest
    else firstRepeat? (seen.insert sealedTx.digest) rest

def append (draft : Draft) (lane : String) (txs : List (SealedTx T)) : Draft where
  txs := draft.txs ++ txs.map SealedTx.bytes
  digests := draft.digests.insertMany (txs.map SealedTx.digest)
  total := addCapped draft.total (bytesOf txs)
  limit := draft.limit
  contributions := draft.contributions ++ [(lane, ⟨txs.length, bytesOf txs⟩)]

def add (draft : Draft) (lane : String) (share : Share) (txs : List (SealedTx T)) :
    Except LaneError Draft :=
  if txs.isEmpty then .ok draft
  else if (draft.contribution? lane).isSome then .error (.repeatedLane lane)
  else
    match firstRepeat? draft.digests txs with
    | some digest => .error (.repeatedTx digest)
    | none =>
      let size := bytesOf txs
      let allowance := draft.allowance share
      let total := addCapped draft.total size
      if allowance < size then .error (.overLaneLimit lane size allowance)
      else if draft.limit < total then .error (.overBlockLimit lane total draft.limit)
      else .ok (draft.append lane txs)

end Draft

end BlockBuilder
