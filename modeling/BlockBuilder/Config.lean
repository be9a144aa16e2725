import BlockBuilder.Coin
import BlockBuilder.Share

namespace BlockBuilder

inductive ReadFault where
  | missing
  | notDirectory
  | isDirectory
  | nameTooLong
  | zeroByte
  | notText
  deriving DecidableEq, Inhabited

def ReadFault.message : ReadFault → String
  | .missing => "No such file or directory (os error 2)"
  | .notDirectory => "Not a directory (os error 20)"
  | .isDirectory => "Is a directory (os error 21)"
  | .nameTooLong => "File name too long (os error 36)"
  | .zeroByte => "file name contained an unexpected NUL byte"
  | .notText => "stream did not contain valid UTF-8"

inductive ConfigError where
  | unreadable (path : String) (fault : ReadFault)
  | unparsable
  | improperShare (field : String) (share : Share)
  | oversubscribed
  | denomMismatch (field expected found : String)
  deriving DecidableEq, Inhabited

def ConfigError.message : ConfigError → String
  | .unreadable path fault => s!"Failed to read config file {path}: {fault.message}"
  | .unparsable => "Failed to parse config"
  | .improperShare field share => s!"Invalid block space {share} for {field}; must lie in [0, 1]"
  | .oversubscribed => "Lane block space sums to more than one block"
  | .denomMismatch field expected found =>
    s!"Auction denominations differ: reserve fee uses {expected}, {field} uses {found}"

structure LaneLimits where
  /-- The share of the block; zero means whatever is left of it. -/
  share : Share := .zero
  -- zero means any number of transactions
  capacity : Nat := 0
  deriving DecidableEq, Inhabited

def defaultDenom : String := "stake"

structure Terms where
  maxBundle : Nat := 2
  reserve : Coin := ⟨defaultDenom, 1⟩
  increment : Coin := ⟨defaultDenom, 1⟩
  entryFee : Coin := ⟨defaultDenom, 0⟩
  guarded : Bool := true
  deriving DecidableEq, Inhabited

def Terms.checkDenom (terms : Terms) (field : String) (coin : Coin) : Except ConfigError Unit :=
  if coin.denom = terms.reserve.denom then .ok ()
  else .error (.denomMismatch field terms.reserve.denom coin.denom)

def Terms.check (terms : Terms) : Except ConfigError Unit := do
  terms.checkDenom "min_bid_increment" terms.increment
  terms.checkDenom "entry_fee" terms.entryFee

structure Config where
  auctionLane : LaneLimits := { share := ⟨1, 5⟩ }
  defaultLane : LaneLimits := {}
  terms : Terms := {}
  deriving DecidableEq, Inhabited

namespace Config

def checkShare (field : String) (limits : LaneLimits) : Except ConfigError Unit :=
  if limits.share.isProper then .ok () else .error (.improperShare field limits.share)

def check (config : Config) : Except ConfigError Unit := do
  checkShare "auction_lane.max_block_space" config.auctionLane
  checkShare "default_lane.max_block_space" config.defaultLane
  unless Share.fitsBlock [config.auctionLane.share, config.defaultLane.share] do
    throw .oversubscribed
  config.terms.check

end Config

end BlockBuilder
