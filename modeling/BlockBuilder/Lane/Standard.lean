import BlockBuilder.Lane.Auction
import BlockBuilder.Lane.General

namespace BlockBuilder

inductive StandardLane (C T : Type) where
  | auction (lane : AuctionLane C T)
  | general (lane : GeneralLane C T)

namespace StandardLane

variable {C T : Type}

def wrap {L : Type} (kind : L → StandardLane C T) (attempt : Attempt L C) :
    Attempt (StandardLane C T) C :=
  ⟨attempt.result, kind attempt.lanes, attempt.state⟩

def settings : StandardLane C T → LaneSettings C T
  | .auction lane => lane.settings
  | .general lane => lane.settings

def pool : StandardLane C T → Pool T UInt64
  | .auction lane => lane.pool
  | .general lane => lane.pool

def withPool : StandardLane C T → Pool T UInt64 → StandardLane C T
  | .auction lane, pool => .auction { lane with pool }
  | .general lane, pool => .general { lane with pool }

variable [Transaction T] [BlockState C]

def insert (state : C) (sealedTx : SealedTx T) :
    StandardLane C T → Except LaneError (StandardLane C T)
  | .auction lane => (lane.insert sealedTx).map .auction
  | .general lane => (lane.insert state sealedTx).map .general

def remove (digest : Digest) : StandardLane C T → Except LaneError (StandardLane C T)
  | .auction lane => (lane.remove digest).map .auction
  | .general lane => (lane.remove digest).map .general

def select : StandardLane C T → List (SealedTx T) × StandardLane C T
  | .auction lane => (lane.select.1, .auction lane.select.2)
  | .general lane => (lane.select.1, .general lane.select.2)

def accepts (state : C) (tx : T) : StandardLane C T → Bool
  | .auction _ => Transaction.isBid tx
  | .general lane => lane.accepts state tx

def contribute (draft : Draft) (limit : Nat) (state : C) :
    StandardLane C T → Attempt (StandardLane C T) C
  | .auction lane => wrap .auction (lane.contribute draft limit state)
  | .general lane => wrap .general (lane.contribute draft limit state)

def claim (draft : Draft) (txs : List (SealedTx T)) :
    StandardLane C T → Run C (Draft × List (SealedTx T))
  | .auction lane => lane.claim draft txs
  | .general lane => lane.claim draft txs

instance : BlockLane (StandardLane C T) C T where
  name
    | .auction _ => AuctionLane.name
    | .general lane => lane.name
  share lane := lane.settings.limits.share
  accepts lane state tx := lane.accepts state tx
  insert lane state sealedTx := lane.insert state sealedTx
  remove lane digest := lane.remove digest
  contains lane digest := lane.pool.contains digest
  size lane := lane.pool.size
  select := select
  verify lane := lane.settings.verify
  contribute lane draft limit state := lane.contribute draft limit state
  ratify _ := .ok ()
  claim lane draft txs := lane.claim draft txs

end StandardLane

end BlockBuilder
