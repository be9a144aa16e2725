import BlockBuilder.Transaction

namespace BlockBuilder.Ledger

inductive Message where
  | transfer (source target : Address) (amount : Coin)
  | bid (offer : BidOffer)
  deriving DecidableEq, Inhabited

def Message.offer? : Message → Option BidOffer
  | .transfer .. => none
  | .bid offer => some offer

structure Tx where
  messages : List Message
  signers : List Address
  sequence : UInt64
  fee : Coin
  /-- The last height at which the transaction is valid; zero means any height. -/
  timeout : UInt64
  memo : Bytes
  deriving DecidableEq, Inhabited

instance : Transaction Tx where
  offers tx := tx.messages.map Message.offer?
  signers := Tx.signers
  sequence := Tx.sequence
  timeout := Tx.timeout

def denom : String := "stake"

namespace Tx

def transfer (sender : Address) (sequence fee : UInt64) : Tx where
  messages := [.transfer sender sender ⟨denom, 1⟩]
  signers := [sender]
  sequence := sequence
  fee := ⟨denom, fee⟩
  timeout := 0
  memo := []

def bid (bidder : Address) (sequence amount : UInt64) (bundle : List Bytes) : Tx where
  messages := [.bid ⟨bidder, ⟨denom, amount⟩, bundle⟩]
  signers := [bidder]
  sequence := sequence
  fee := ⟨denom, 0⟩
  timeout := 0
  memo := []

def filler : UInt8 := 0xAB

def withMemo (tx : Tx) (length : Nat) : Tx := { tx with memo := List.replicate length filler }

end Tx

end BlockBuilder.Ledger
