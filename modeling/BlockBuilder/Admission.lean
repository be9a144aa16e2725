import BlockBuilder.Auction.Acceptance
import BlockBuilder.Lane.Auction
import BlockBuilder.Registry

namespace BlockBuilder

inductive AdmissionError where
  | unreadable (cause : CodecError)
  | bid (cause : AuctionError)
  | invalid (reason : String)
  | lane (cause : LaneError)
  | notPending (digest : Digest)
  deriving DecidableEq, Inhabited

def AdmissionError.message : AdmissionError → String
  | .unreadable cause => cause.message
  | .bid cause => cause.message
  | .invalid reason => s!"Ante handler rejected transaction: {reason}"
  | .lane cause => cause.message
  | .notPending digest => s!"Transaction {digest} is not in the mempool"

structure Admission (C T : Type) where
  codec : Codec T
  verifier : Verifier C T
  terms : Terms
  funds : Funds C

namespace Admission

variable {C T : Type}

def verify (rules : Admission C T) (state : C) (tx : T) : Except AdmissionError C :=
  (rules.verifier state tx false).mapError .invalid

variable [Transaction T]

def verifyBundle (rules : Admission C T) : Nat → List Bytes → C → Except AdmissionError C
  | _, [], state => .ok state
  | position, bytes :: rest, state => do
    let tx ← (Bid.bundledTx rules.codec position bytes).mapError .bid
    let next ← rules.verify state tx
    rules.verifyBundle (position + 1) rest next

variable [BlockState C]

def verifyBid (rules : Admission C T) (state : C) (tx : T) (bid : Bid) (highest : Option Coin) :
    Except AdmissionError C := do
  (rules.terms.accept rules.funds state bid highest).mapError .bid
  let next ← rules.verify state tx
  rules.verifyBundle 0 bid.bundle next

variable {L : Type} [BlockLane L C T]

open BlockLane

/-- The price at the top of the auction lane, unless that is the submission itself, and the
registry after looking. While nothing is being submitted there is no price to exceed. -/
def topPrice (rules : Admission C T) (registry : Registry L) (state : C) (digest : Digest) :
    Option Coin × Registry L :=
  if (BlockState.phase state).isSubmission then
    match registry.lane? AuctionLane.name with
    | .error _ => (none, registry)
    | .ok lane =>
      let (txs, lane) := select lane
      let top := txs.head?.filter fun sealedTx => sealedTx.digest ≠ digest
      let price := top.bind fun sealedTx =>
        (Bid.ofTx? rules.codec sealedTx.tx).toOption.join.map Bid.price
      (price, registry.replace AuctionLane.name lane)
  else (none, registry)

def screen (rules : Admission C T) (registry : Registry L) (state : C) (sealedTx : SealedTx T) :
    Except AdmissionError C × Registry L :=
  match Bid.ofTx? rules.codec sealedTx.tx with
  | .error cause => (.error (.bid cause), registry)
  | .ok none => (rules.verify state sealedTx.tx, registry)
  | .ok (some bid) =>
    let (highest, registry) := rules.topPrice registry state sealedTx.digest
    (rules.verifyBid state sealedTx.tx bid highest, registry)

def enter (registry : Registry L) (sealedTx : SealedTx T) (next : C) :
    Except AdmissionError (Digest × C) × Registry L :=
  match registry.insert next sealedTx with
  | .error cause => (.error (.lane cause), registry)
  | .ok registry => (.ok (sealedTx.digest, next), registry)

def submit (rules : Admission C T) (registry : Registry L) (state : C) (bytes : Bytes) :
    Except AdmissionError (Digest × C) × Registry L :=
  match SealedTx.decode rules.codec bytes with
  | .error cause => (.error (.unreadable cause), registry)
  | .ok sealedTx =>
    if BlockState.phase state = .recheck ∧ !registry.contains sealedTx.digest then
      (.error (.notPending sealedTx.digest), registry)
    else
      match rules.screen registry state sealedTx with
      | (.error cause, registry) => (.error cause, registry)
      | (.ok next, registry) => enter registry sealedTx next

end Admission

end BlockBuilder
