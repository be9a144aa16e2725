import BlockBuilder.Auction.Error
import BlockBuilder.Config
import BlockBuilder.Pool.Basic

namespace BlockBuilder

inductive SetupFault where
  | improperShare (share : Share)
  | noLanes
  | repeatedName (lane : String)
  | improperLaneShare (lane : String) (share : Share)
  | oversubscribed
  | config (cause : ConfigError)
  deriving DecidableEq, Inhabited

def SetupFault.message : SetupFault → String
  | .improperShare share => s!"max block space {share} must lie in [0, 1]"
  | .noLanes => "at least one lane is required"
  | .repeatedName lane => s!"duplicate lane name {lane}"
  | .improperLaneShare lane share => s!"lane {lane} max block space {share} must lie in [0, 1]"
  | .oversubscribed => "lane block spaces sum to more than one"
  | .config cause => cause.message

inductive LaneError where
  | pool (cause : PoolError)
  | codec (cause : CodecError)
  | unverified (reason : String)
  | auction (lane : String) (cause : AuctionError)
  | repeatedTx (digest : Digest)
  | repeatedLane (lane : String)
  | overLaneLimit (lane : String) (size limit : Nat)
  | overBlockLimit (lane : String) (size limit : Nat)
  | misplaced (lane : String) (digest : Digest)
  | unclaimed (count : Nat)
  | bundleTooShort (expected found : Nat)
  | bundleMismatch (position : Nat)
  | unroutable (digest : Digest)
  | setup (fault : SetupFault)
  | unknownLane (lane : String)
  deriving DecidableEq, Inhabited

def LaneError.message : LaneError → String
  | .pool cause => cause.message
  | .codec cause => cause.message
  | .unverified reason => s!"Transaction verification failed: {reason}"
  | .auction lane cause => s!"Lane {lane}: {cause.message}"
  | .repeatedTx digest => s!"Transaction {digest} is already in the proposal"
  | .repeatedLane lane => s!"Lane {lane} already prepared a partial proposal"
  | .overLaneLimit lane size limit =>
    s!"Lane {lane} partial proposal is too large: {size} > {limit}"
  | .overBlockLimit lane size limit =>
    s!"Block proposal is too large after lane {lane}: {size} > {limit}"
  | .misplaced lane digest => s!"Transaction {digest} belongs to lane {lane} but was not processed"
  | .unclaimed count => s!"{count} transactions were not claimed by any lane"
  | .bundleTooShort expected found =>
    s!"Bundle is too short: expected {expected} transactions, found {found}"
  | .bundleMismatch position =>
    s!"Bundled transaction {position} does not match the proposal"
  | .unroutable digest => s!"No lane matches transaction {digest}"
  | .setup fault => s!"Invalid lane configuration: {fault.message}"
  | .unknownLane lane => s!"Lane {lane} not found"

end BlockBuilder
