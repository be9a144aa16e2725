import BlockBuilder.Ledger.Transaction
import BlockBuilder.Sealed
import BlockBuilder.Text.Utf8

/-!
# The wire form of ledger transactions

Numbers have a fixed width with the least significant byte first, lists and texts are preceded by
their length in eight bytes, addresses are their twenty bytes, messages are preceded by their kind
in four bytes, and the fields of a transaction follow each other in the order of their declaration.
Nothing may follow the last field.
-/
namespace BlockBuilder.Ledger.Wire

inductive WireError where
  | truncated
  | truncatedText
  | invalidText (fault : Utf8.Fault)
  | unknownKind (kind : Nat)
  | trailing
  deriving DecidableEq, Inhabited

def faultMessage : Utf8.Fault → String
  | .invalid start count => s!"invalid utf-8 sequence of {count} bytes from index {start}"
  | .incomplete start => s!"incomplete utf-8 byte sequence from index {start}"

def WireError.message : WireError → String
  | .truncated => "io error: unexpected end of file"
  | .truncatedText => "io error: "
  | .invalidText fault => s!"string is not valid utf8: {faultMessage fault}"
  | .unknownKind kind =>
    s!"invalid value: integer `{kind}`, expected variant index 0 <= i < 2"
  | .trailing => "Slice had bytes remaining after deserialization"

def putNat (value : Nat) : Bytes := Bytes.littleEndian 8 value

def putWord (value : UInt64) : Bytes := putNat value.toNat

def putBytes (bytes : Bytes) : Bytes := putNat bytes.length ++ bytes

def putText (text : String) : Bytes := putBytes (Utf8.encode text)

def putList {α : Type} (put : α → Bytes) (items : List α) : Bytes :=
  putNat items.length ++ items.flatMap put

def putCoin (coin : Coin) : Bytes := putText coin.denom ++ putWord coin.amount

def putOffer (offer : BidOffer) : Bytes :=
  offer.bidder.toBytes ++ putCoin offer.price ++ putList putBytes offer.bundle

def putMessage : Message → Bytes
  | .transfer source target amount =>
    Bytes.littleEndian 4 0 ++ source.toBytes ++ target.toBytes ++ putCoin amount
  | .bid offer => Bytes.littleEndian 4 1 ++ putOffer offer

def encode (tx : Tx) : Bytes :=
  putList putMessage tx.messages ++ putList Address.toBytes tx.signers ++ putWord tx.sequence ++
    putCoin tx.fee ++ putWord tx.timeout ++ putBytes tx.memo

abbrev Reader := StateT Bytes (Except WireError)

def split? : Nat → Bytes → Option (Bytes × Bytes)
  | 0, bytes => some ([], bytes)
  | _ + 1, [] => none
  | count + 1, byte :: rest => (split? count rest).map fun (taken, rest) => (byte :: taken, rest)

def getBytes (count : Nat) (error : WireError) : Reader Bytes := fun bytes =>
  match split? count bytes with
  | some found => .ok found
  | none => .error error

def getNat (width : Nat) : Reader Nat := do
  return Bytes.ofLittleEndian (← getBytes width .truncated)

def getWord : Reader UInt64 := do
  return UInt64.ofNat (← getNat 8)

def getMany {α : Type} (get : Reader α) : Nat → Reader (List α)
  | 0 => pure []
  | count + 1 => do
    let item ← get
    let items ← getMany get count
    return item :: items

def getList {α : Type} (get : Reader α) : Reader (List α) := do
  getMany get (← getNat 8)

def getBlob : Reader Bytes := do
  getBytes (← getNat 8) .truncated

def getText : Reader String := do
  let bytes ← getBytes (← getNat 8) .truncatedText
  match Utf8.decode? bytes with
  | some text => return text
  | none => throw (.invalidText (Utf8.firstFault bytes))

def getAddress : Reader Address := do
  return Address.ofBytes (← getBytes Address.width .truncated)

def getCoin : Reader Coin := do
  let denom ← getText
  let amount ← getWord
  return ⟨denom, amount⟩

def getOffer : Reader BidOffer := do
  let bidder ← getAddress
  let price ← getCoin
  let bundle ← getList getBlob
  return ⟨bidder, price, bundle⟩

def getMessage : Reader Message := do
  match ← getNat 4 with
  | 0 =>
    let source ← getAddress
    let target ← getAddress
    let amount ← getCoin
    return .transfer source target amount
  | 1 => return .bid (← getOffer)
  | kind => throw (.unknownKind kind)

def getTx : Reader Tx := do
  let messages ← getList getMessage
  let signers ← getList getAddress
  let sequence ← getWord
  let fee ← getCoin
  let timeout ← getWord
  let memo ← getBlob
  return { messages, signers, sequence, fee, timeout, memo }

def decode (bytes : Bytes) : Except WireError Tx :=
  match getTx bytes with
  | .error error => .error error
  | .ok (tx, []) => .ok tx
  | .ok (_, _ :: _) => .error .trailing

def codec : Codec Tx where
  encode tx := .ok (encode tx)
  decode bytes := (decode bytes).mapError fun error => .unreadable error.message

def padTo? (tx : Tx) (size : Nat) : Option Tx :=
  let least := (encode (tx.withMemo 0)).length
  if least ≤ size then some (tx.withMemo (size - least)) else none

end BlockBuilder.Ledger.Wire
