import BlockBuilder.BlockState
import BlockBuilder.Draft
import BlockBuilder.Lane.Run

/-!
# Lanes

A lane holds pending transactions of one kind and fills one part of every block with them. It
decides which transactions it accepts, contributes to blocks that are being built and claims its
part of blocks that are being judged.

Building never fails because of one lane: an attempt gives the lane and the state it leaves behind
whether or not the contribution was made. Judging is a run on the state that stops at the first
refusal; what it changed before stays changed.
-/
namespace BlockBuilder

/-- An attempt to extend a draft: the draft or a refusal, and in either case what became of the
lanes and the state. -/
structure Attempt (L C : Type) where
  result : Except LaneError Draft
  lanes : L
  state : C

class BlockLane (L : Type) (C T : outParam Type) where
  name : L → String
  share : L → Share
  accepts : L → C → T → Bool
  insert : L → C → SealedTx T → Except LaneError L
  remove : L → Digest → Except LaneError L
  contains : L → Digest → Bool
  size : L → Nat
  select : L → List (SealedTx T) × L
  verify : L → C → T → Bool → Except LaneError C
  contribute : L → Draft → Nat → C → Attempt L C
  /-- The lane's last word on a draft once the later lanes have contributed. -/
  ratify : L → Except LaneError Unit
  /-- Verifies the lane's part at the front of a block, adds it to a draft and leaves the rest. -/
  claim : L → Draft → List (SealedTx T) → Run C (Draft × List (SealedTx T))

structure LaneSettings (C T : Type) where
  codec : Codec T
  verifier : Option (Verifier C T)
  limits : LaneLimits

namespace LaneSettings

variable {C T : Type}

def check (settings : LaneSettings C T) : Except LaneError Unit :=
  if settings.limits.share.isProper then .ok ()
  else .error (.setup (.improperShare settings.limits.share))

def verify (settings : LaneSettings C T) (state : C) (tx : T) (simulate : Bool) :
    Except LaneError C :=
  match settings.verifier with
  | none => .ok state
  | some verifier => (verifier state tx simulate).mapError .unverified

def verifyAll (settings : LaneSettings C T) : List (SealedTx T) → Run C Unit
  | [] => pure ()
  | sealedTx :: rest => do
    Run.advance fun state => settings.verify state sealedTx.tx false
    settings.verifyAll rest

def emptyPool {V : Type} [Ord V] (settings : LaneSettings C T) : Pool T V :=
  .empty { capacity := settings.limits.capacity }

end LaneSettings

end BlockBuilder
