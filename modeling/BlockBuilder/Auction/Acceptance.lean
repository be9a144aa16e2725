import BlockBuilder.Auction.Bid
import BlockBuilder.BlockState
import BlockBuilder.Config

/-!
# Acceptance of bids

A bid is accepted in a state if it has not timed out, bundles no more transactions than allowed,
offers at least the reserve in the reserve's denomination, exceeds the highest pending bid by the
increment, can be paid together with the entry fee, and does not use its place to take advantage of
others' transactions. `Terms.accept` checks this in that order and reports the first failure.

Advantage is ruled out by who signed what: a bundle is fair if one account signed all of it, or one
account a first part and the bidder everything after it.
-/
namespace BlockBuilder

/-- Whether a bundle goes on fairly: `allowed` are the accounts that signed everything since the
last change of party, and `sawBidder` says that no further change is possible. -/
def fairAfter (bidder : Address) : Bool → Signers → List Signers → Bool
  | _, _, [] => true
  | sawBidder, allowed, signers :: rest =>
    let common := allowed ∩ signers
    if common.isEmpty then
      !sawBidder && signers.contains bidder && fairAfter bidder true (.ofList [bidder]) rest
    else fairAfter bidder sawBidder common rest

def isFair (bidder : Address) : List Signers → Bool
  | [] => true
  | first :: rest => fairAfter bidder (first.contains bidder) first rest

def checkFair (bidder : Address) (signers : List Signers) : Except AuctionError Unit :=
  if isFair bidder signers then .ok () else .error .frontRunning

namespace Terms

/-- The height of the earliest block that can include a bid seen in this state: the next one while
transactions are being submitted. -/
def targetHeight {C : Type} [BlockState C] (state : C) : UInt64 :=
  let height := BlockState.height state
  if (BlockState.phase state).isSubmission then
    if height.toNat < maxCount then height + 1 else height
  else height

def addCoins (terms : Terms) (left right : Coin) : Except AuctionError Coin :=
  if left.denom ≠ right.denom then
    .error (.denomMismatch terms.reserve.denom
      (if left.denom = terms.reserve.denom then right.denom else left.denom))
  else
    match Coin.add? left right with
    | some sum => .ok sum
    | none => .error .amountOverflow

def checkIncrement (terms : Terms) (price : Coin) : Option Coin → Except AuctionError Unit
  | none => .ok ()
  | some highest => do
    let minimum ← terms.addCoins highest terms.increment
    if price.amount < minimum.amount then throw (.outbid price minimum)

def checkFunds {C : Type} (terms : Terms) (funds : Funds C) (state : C) (bid : Bid) :
    Except AuctionError Unit := do
  let required ← terms.addCoins bid.price terms.entryFee
  match funds state bid.bidder required.denom with
  | .error reason => throw (.fundsUnknown reason)
  | .ok available =>
    if available.denom ≠ required.denom ∨ available.amount < required.amount then
      throw (.insufficientFunds required available)

def accept {C : Type} [BlockState C] (terms : Terms) (funds : Funds C) (state : C) (bid : Bid)
    (highest : Option Coin) : Except AuctionError Unit := do
  let height := targetHeight state
  if bid.timeout < height then throw (.expired bid.timeout height)
  if terms.maxBundle < bid.bundle.length then
    throw (.bundleTooLarge bid.bundle.length terms.maxBundle)
  unless bid.price.denom = terms.reserve.denom do
    throw (.denomMismatch terms.reserve.denom bid.price.denom)
  if bid.price.amount < terms.reserve.amount then throw (.belowReserve bid.price terms.reserve)
  terms.checkIncrement bid.price highest
  terms.checkFunds funds state bid
  if terms.guarded then checkFair bid.bidder bid.signers

end Terms

end BlockBuilder
