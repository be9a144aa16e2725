import BlockBuilder.Ledger.Transaction

/-!
# Random workloads

Transfers with random fees, from a stream of random words. A fee is drawn by multiplying a word
with the number of possible fees: the high half of the product is the draw, and words whose low
half lies beyond the last whole number of rounds are thrown away, so that all fees are equally
likely. A stream that has run out goes on with zeros.
-/
namespace BlockBuilder.Ledger

def leadingZeros (word : UInt64) : Nat := 63 - Nat.log2 word.toNat

/-- The largest low half of a product that is kept. -/
def acceptanceZone (range : UInt64) : Nat :=
  (range.toNat <<< leadingZeros range) % UInt64.size - 1

def draw (range : UInt64) : List UInt64 → UInt64 × List UInt64
  | [] => (0, [])
  | word :: rest =>
    let product := word.toNat * range.toNat
    if product % UInt64.size ≤ acceptanceZone range then (UInt64.ofNat (product / UInt64.size), rest)
    else draw range rest

def drawFees (maxFee : UInt64) :
    List (Address × UInt64) → List UInt64 → List Tx × List UInt64
  | [], words => ([], words)
  | (sender, sequence) :: rest, words =>
    let (fee, words) := draw maxFee words
    let (txs, words) := drawFees maxFee rest words
    (.transfer sender sequence (fee + 1) :: txs, words)

def slotsOf (firstSender senders txsPerSender : UInt64) : List (Address × UInt64) :=
  (List.range senders.toNat).flatMap fun offset =>
    (List.range txsPerSender.toNat).map fun sequence =>
      (Address.ofIndex (firstSender + UInt64.ofNat offset), UInt64.ofNat sequence)

def randomTransfers? (words : List UInt64) (firstSender senders txsPerSender maxFee : UInt64) :
    Option (List Tx × List UInt64) :=
  let slots := slotsOf firstSender senders txsPerSender
  if maxFee = 0 ∧ !slots.isEmpty then none else some (drawFees maxFee slots words)

end BlockBuilder.Ledger
