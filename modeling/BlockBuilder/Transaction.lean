import BlockBuilder.Address
import BlockBuilder.Coin

namespace BlockBuilder

/-- A bid for the top of the block: the bidder pays the price if the bundled transactions follow
the bid at once and in this order. -/
structure BidOffer where
  bidder : Address
  price : Coin
  bundle : List Bytes
  deriving DecidableEq, Inhabited

class Transaction (T : Type) where
  offers : T → List (Option BidOffer)
  signers : T → List Address
  sequence : T → UInt64
  timeout : T → UInt64

namespace Transaction

variable {T : Type} [Transaction T]

def sender? (tx : T) : Option Address := (signers tx).head?

def offer? (tx : T) : Option BidOffer := (offers tx).findSome? id

def isBid (tx : T) : Bool := (offers tx).any Option.isSome

end Transaction

end BlockBuilder
