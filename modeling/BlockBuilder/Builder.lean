import BlockBuilder.Admission
import BlockBuilder.Lane.Standard
import BlockBuilder.Proposal

namespace BlockBuilder

structure Builder (C T : Type) where
  registry : Registry (StandardLane C T)
  rules : Admission C T

namespace Builder

variable {C T : Type} [Transaction T] [BlockState C]

def ofConfig (config : Config) (codec : Codec T) (verifier : Verifier C T) (funds : Funds C) :
    Except LaneError (Builder C T) := do
  config.check.mapError fun cause => .setup (.config cause)
  let settings (limits : LaneLimits) : LaneSettings C T := ⟨codec, some verifier, limits⟩
  let auction ← AuctionLane.create (settings config.auctionLane) config.terms funds
  let general ← GeneralLane.create GeneralLane.defaultName (settings config.defaultLane)
    [fun _ tx => Transaction.isBid tx]
  let registry ← Registry.ofLanes [.auction auction, .general general]
  return ⟨registry, codec, verifier, config.terms, funds⟩

end Builder

end BlockBuilder
