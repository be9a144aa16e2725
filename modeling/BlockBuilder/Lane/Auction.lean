import BlockBuilder.Auction.Acceptance
import BlockBuilder.Lane.Basic
import BlockBuilder.Pool.Selection

/-!
# Auction lanes

An auction lane holds bids by price and puts one of them, followed by its bundle, at the top of the
block. `verifyBid` is the rule for a bid in a state: it is well formed, it is accepted on the
lane's terms, and the bid and the bundled transactions are valid one after another.

When the lane contributes, it tries its bids in the order of selection, each on a branch of the
state. A bid that the rule or the draft refuses is evicted; one that is too large, or part of which
is already in the draft, is passed over; the first that fits is included. When it claims, a bid at
the front of the block must be followed by exactly its bundle, and no bid may come anywhere else.
-/
namespace BlockBuilder

structure AuctionLane (C T : Type) where
  settings : LaneSettings C T
  terms : Terms
  funds : Funds C
  pool : Pool T UInt64

namespace AuctionLane

variable {C T : Type}

def name : String := "top-of-block"

def create (settings : LaneSettings C T) (terms : Terms) (funds : Funds C) :
    Except LaneError (AuctionLane C T) := do
  settings.check
  return { settings, terms, funds, pool := settings.emptyPool }

def refusal {α : Type} (result : Except AuctionError α) : Except LaneError α :=
  result.mapError (.auction name)

def share (lane : AuctionLane C T) : Share := lane.settings.limits.share

variable [Transaction T]

def priority (tx : T) : UInt64 :=
  match Transaction.offer? tx with
  | some offer => offer.price.amount
  | none => 0

def insert (lane : AuctionLane C T) (sealedTx : SealedTx T) : Except LaneError (AuctionLane C T) :=
  match lane.pool.insert (priority sealedTx.tx) sealedTx with
  | .ok pool => .ok { lane with pool }
  | .error cause => .error (.pool cause)

def remove (lane : AuctionLane C T) (digest : Digest) : Except LaneError (AuctionLane C T) :=
  match lane.pool.remove digest with
  | .ok pool => .ok { lane with pool }
  | .error cause => .error (.pool cause)

def select (lane : AuctionLane C T) : List (SealedTx T) × AuctionLane C T :=
  let (txs, pool) := lane.pool.select
  (txs, { lane with pool })

/-- The price of the first well-formed bid in the order of selection, apart from one. -/
def highestBid (lane : AuctionLane C T) (exclude : Digest) : Option Coin × AuctionLane C T :=
  let (txs, lane) := lane.select
  let others := txs.filter fun sealedTx => sealedTx.digest ≠ exclude
  let price := others.findSome? fun sealedTx =>
    (Bid.ofTx? lane.settings.codec sealedTx.tx).toOption.join.map Bid.price
  (price, lane)

def bidOf (lane : AuctionLane C T) (sealedTx : SealedTx T) : Except AuctionError Bid :=
  match Bid.ofTx? lane.settings.codec sealedTx.tx with
  | .error error => .error error
  | .ok none => .error (.malformed (.noBid sealedTx.digest))
  | .ok (some bid) => .ok bid

/-- Verifies bundled transactions from a position on, none of which may have been seen before, and
seals them. -/
def verifyBundle (lane : AuctionLane C T) :
    List Digest → Nat → List Bytes → Run C (List (SealedTx T))
  | _, _, [] => pure []
  | seen, position, bytes :: rest => do
    let tx ← Run.ofExcept (refusal (Bid.bundledTx lane.settings.codec position bytes))
    let sealedTx ← Run.ofExcept ((SealedTx.encode lane.settings.codec tx).mapError .codec)
    if seen.contains sealedTx.digest then throw (.auction name (.repeatedTx position))
    Run.advance fun state => lane.settings.verify state sealedTx.tx false
    let bundle ← lane.verifyBundle (sealedTx.digest :: seen) (position + 1) rest
    return sealedTx :: bundle

def verifyBid [BlockState C] (lane : AuctionLane C T) (bidTx : SealedTx T) :
    Run C (Bid × List (SealedTx T)) := do
  let bid ← Run.ofExcept (refusal (lane.bidOf bidTx))
  Run.ofExcept (refusal (lane.terms.accept lane.funds (← get) bid none))
  Run.advance fun state => lane.settings.verify state bidTx.tx false
  let bundle ← lane.verifyBundle [bidTx.digest] 0 bid.bundle
  return (bid, bundle)

structure Choice (C : Type) where
  dead : List Digest
  draft : Draft
  state : C

def Choice.bury (bidTx : SealedTx T) (choice : Choice C) : Choice C :=
  { choice with dead := bidTx.digest :: choice.dead }

/-- Tries bids in order, each in the same state, until one is included. -/
def choose [BlockState C] (lane : AuctionLane C T) (draft : Draft) (limit : Nat) (state : C) :
    List (SealedTx T) → Choice C
  | [] => ⟨[], draft, state⟩
  | bidTx :: rest =>
    if draft.contains bidTx.digest then lane.choose draft limit state rest
    else
      match (lane.verifyBid bidTx).outcome state with
      | (.error _, _) => (lane.choose draft limit state rest).bury bidTx
      | (.ok (_, bundle), branch) =>
        if bundle.any fun sealedTx => draft.contains sealedTx.digest then
          lane.choose draft limit state rest
        else if limit < Draft.bytesOf (bidTx :: bundle) then lane.choose draft limit state rest
        else
          match draft.add name lane.share (bidTx :: bundle) with
          | .error _ => (lane.choose draft limit state rest).bury bidTx
          | .ok extended => ⟨[], extended, branch⟩

def contribute [BlockState C] (lane : AuctionLane C T) (draft : Draft) (limit : Nat) (state : C) :
    Attempt (AuctionLane C T) C :=
  let (bids, lane) := lane.select
  let choice := lane.choose draft limit state bids
  { result := .ok choice.draft
    lanes := { lane with pool := lane.pool.removeAll choice.dead }
    state := choice.state }

def refuseBids (txs : List (SealedTx T)) : Except LaneError Unit :=
  match txs.find? fun sealedTx => Transaction.isBid sealedTx.tx with
  | some bidTx => .error (.misplaced name bidTx.digest)
  | none => .ok ()

def firstMismatch? (bundle found : List (SealedTx T)) : Option Nat :=
  (bundle.zip found).findIdx? fun (expected, found) => expected.bytes ≠ found.bytes

/-- Verifies a bid at the front of a block and its bundle, adds them to the draft and leaves the
rest. -/
def claim [BlockState C] (lane : AuctionLane C T) (draft : Draft) :
    List (SealedTx T) → Run C (Draft × List (SealedTx T))
  | [] => return (draft, [])
  | bidTx :: rest =>
    if Transaction.isBid bidTx.tx then do
      let (_, bundle) ← lane.verifyBid bidTx
      if rest.length < bundle.length then throw (.bundleTooShort bundle.length rest.length)
      if let some position := firstMismatch? bundle rest then throw (.bundleMismatch position)
      let remaining := rest.drop bundle.length
      Run.ofExcept (refuseBids remaining)
      let draft ← Run.ofExcept (draft.add name lane.share (bidTx :: rest.take bundle.length))
      return (draft, remaining)
    else do
      Run.ofExcept (refuseBids (bidTx :: rest))
      return (draft, bidTx :: rest)

instance [BlockState C] : BlockLane (AuctionLane C T) C T where
  name _ := name
  share := share
  accepts _ _ tx := Transaction.isBid tx
  insert lane _ sealedTx := lane.insert sealedTx
  remove := remove
  contains lane digest := lane.pool.contains digest
  size lane := lane.pool.size
  select := select
  verify lane := lane.settings.verify
  contribute := contribute
  ratify _ := .ok ()
  claim := claim

end AuctionLane

end BlockBuilder
