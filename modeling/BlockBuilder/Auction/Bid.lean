import Std.Data.TreeSet
import BlockBuilder.Auction.Error

namespace BlockBuilder

abbrev Signers := Std.TreeSet Address

structure Bid where
  bidder : Address
  price : Coin
  bundle : List Bytes
  timeout : UInt64
  signers : List Signers

namespace Bid

variable {T : Type} [Transaction T]

def signersOf (tx : T) : Signers := .ofList (Transaction.signers tx)

def bundledTx (codec : Codec T) (position : Nat) (bytes : Bytes) : Except AuctionError T :=
  match codec.decode bytes with
  | .error cause => .error (.unreadableTx position cause)
  | .ok tx => if Transaction.isBid tx then .error (.nestedBid position) else .ok tx

def openBundle (codec : Codec T) : Nat → List Bytes → Except AuctionError (List T)
  | _, [] => .ok []
  | position, bytes :: rest => do
    let tx ← bundledTx codec position bytes
    let txs ← openBundle codec (position + 1) rest
    return tx :: txs

def firstRepeat? (bundle : List Bytes) : Option Nat :=
  (List.range bundle.length).find? fun position =>
    match bundle[position]? with
    | some entry => (bundle.take position).contains entry
    | none => false

def ofTx? (codec : Codec T) (tx : T) : Except AuctionError (Option Bid) :=
  match Transaction.offer? tx with
  | none => .ok none
  | some offer => do
    let messages := (Transaction.offers tx).length
    unless messages = 1 do throw (.malformed (.messageCount messages))
    if offer.bundle.isEmpty then throw (.malformed .emptyBundle)
    unless (Transaction.signers tx).contains offer.bidder do
      throw (.malformed (.unsigned offer.bidder))
    if let some position := firstRepeat? offer.bundle then throw (.repeatedTx position)
    let txs ← openBundle codec 0 offer.bundle
    return some {
      bidder := offer.bidder
      price := offer.price
      bundle := offer.bundle
      timeout := Transaction.timeout tx
      signers := txs.map signersOf }

end Bid

end BlockBuilder
