import BlockBuilder.Sealed

namespace BlockBuilder

inductive BidDefect where
  | messageCount (found : Nat)
  | emptyBundle
  | unsigned (bidder : Address)
  | noBid (digest : Digest)
  deriving DecidableEq, Inhabited

def BidDefect.message : BidDefect → String
  | .messageCount found => s!"expected a single bid message, found {found} messages"
  | .emptyBundle => "bid bundles no transactions"
  | .unsigned bidder => s!"bidder {bidder} did not sign the bid"
  | .noBid digest => s!"transaction {digest} carries no bid"

inductive AuctionError where
  | malformed (defect : BidDefect)
  | nestedBid (position : Nat)
  | repeatedTx (position : Nat)
  | unreadableTx (position : Nat) (cause : CodecError)
  | expired (timeout height : UInt64)
  | bundleTooLarge (size limit : Nat)
  | denomMismatch (expected found : String)
  | belowReserve (price reserve : Coin)
  | outbid (price minimum : Coin)
  | amountOverflow
  | insufficientFunds (required available : Coin)
  | fundsUnknown (reason : String)
  | frontRunning
  deriving DecidableEq, Inhabited

def AuctionError.message : AuctionError → String
  | .malformed defect => s!"Invalid bid transaction: {defect.message}"
  | .nestedBid position => s!"Bundled transaction {position} is a bid"
  | .repeatedTx position => s!"Bundled transaction {position} repeats an earlier transaction"
  | .unreadableTx position cause =>
    s!"Bundled transaction {position} does not decode: {cause.message}"
  | .expired timeout height => s!"Bid timed out at height {timeout}, current height is {height}"
  | .bundleTooLarge size limit =>
    s!"Bundle of {size} transactions exceeds the maximum of {limit}"
  | .denomMismatch expected found => s!"Bid denomination {found} does not match {expected}"
  | .belowReserve price reserve => s!"Bid {price} is below the reserve fee {reserve}"
  | .outbid price minimum => s!"Bid {price} is lower than the minimum {minimum}"
  | .amountOverflow => "Bid amount overflow"
  | .insufficientFunds required available =>
    s!"Insufficient funds: required {required}, available {available}"
  | .fundsUnknown reason => s!"Failed to query balance: {reason}"
  | .frontRunning => "Possible front-running or sandwich attack in bundle"

end BlockBuilder
