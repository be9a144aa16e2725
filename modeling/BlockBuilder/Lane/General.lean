import BlockBuilder.Lane.Basic
import BlockBuilder.Pool.Selection

namespace BlockBuilder

structure GeneralLane (C T : Type) where
  name : String
  settings : LaneSettings C T
  pool : Pool T UInt64
  exclusions : List (C → T → Bool) := []

namespace GeneralLane

variable {C T : Type}

def defaultName : String := "default"

def create (name : String) (settings : LaneSettings C T) (exclusions : List (C → T → Bool)) :
    Except LaneError (GeneralLane C T) := do
  settings.check
  return { name, settings, pool := settings.emptyPool, exclusions }

def accepts (lane : GeneralLane C T) (state : C) (tx : T) : Bool :=
  !lane.exclusions.any fun excludes => excludes state tx

def insert [Transaction T] [BlockState C] (lane : GeneralLane C T) (state : C)
    (sealedTx : SealedTx T) : Except LaneError (GeneralLane C T) :=
  match lane.pool.insert (BlockState.priority state) sealedTx with
  | .ok pool => .ok { lane with pool }
  | .error cause => .error (.pool cause)

def remove (lane : GeneralLane C T) (digest : Digest) : Except LaneError (GeneralLane C T) :=
  match lane.pool.remove digest with
  | .ok pool => .ok { lane with pool }
  | .error cause => .error (.pool cause)

def select (lane : GeneralLane C T) : List (SealedTx T) × GeneralLane C T :=
  let (txs, pool) := lane.pool.select
  (txs, { lane with pool })

structure Picks (C T : Type) where
  chosen : List (SealedTx T)
  dead : List Digest
  state : C

def Picks.choose (sealedTx : SealedTx T) (picks : Picks C T) : Picks C T :=
  { picks with chosen := sealedTx :: picks.chosen }

def Picks.bury (sealedTx : SealedTx T) (picks : Picks C T) : Picks C T :=
  { picks with dead := sealedTx.digest :: picks.dead }

/-- Picks from transactions in order, with the bytes and the state reached so far. -/
def pick (lane : GeneralLane C T) (draft : Draft) (limit : Nat) :
    List (SealedTx T) → Nat → C → Picks C T
  | [], _, state => ⟨[], [], state⟩
  | sealedTx :: rest, size, state =>
    if !lane.accepts state sealedTx.tx then (lane.pick draft limit rest size state).bury sealedTx
    else if draft.contains sealedTx.digest then lane.pick draft limit rest size state
    else
      let grown := addCapped size sealedTx.size
      -- the first one that is too large ends the selection, whether or not it is valid
      if limit < grown then ⟨[], [], state⟩
      else
        match lane.settings.verify state sealedTx.tx false with
        | .error _ => (lane.pick draft limit rest size state).bury sealedTx
        | .ok next => (lane.pick draft limit rest grown next).choose sealedTx

def contribute (lane : GeneralLane C T) (draft : Draft) (limit : Nat) (state : C) :
    Attempt (GeneralLane C T) C :=
  let (txs, lane) := lane.select
  let picks := lane.pick draft limit txs 0 state
  { result := draft.add lane.name lane.settings.limits.share picks.chosen
    lanes := { lane with pool := lane.pool.removeAll picks.dead }
    state := picks.state }

def claim (lane : GeneralLane C T) (draft : Draft) (txs : List (SealedTx T)) :
    Run C (Draft × List (SealedTx T)) := do
  let state ← get
  let ours (sealedTx : SealedTx T) := lane.accepts state sealedTx.tx
  let rest := txs.dropWhile ours
  if let some stray := rest.find? ours then throw (.misplaced lane.name stray.digest)
  lane.settings.verifyAll (txs.takeWhile ours)
  let draft ← Run.ofExcept
    (draft.add lane.name lane.settings.limits.share (txs.takeWhile ours))
  return (draft, rest)

instance [Transaction T] [BlockState C] : BlockLane (GeneralLane C T) C T where
  name lane := lane.name
  share lane := lane.settings.limits.share
  accepts := accepts
  insert := insert
  remove := remove
  contains lane digest := lane.pool.contains digest
  size lane := lane.pool.size
  select := select
  verify lane := lane.settings.verify
  contribute := contribute
  ratify _ := .ok ()
  claim := claim

end GeneralLane

end BlockBuilder
