import Std.Data.HashMap
import Std.Data.TreeSet
import BlockBuilder.Pool.Rank
import BlockBuilder.Sealed

/-!
# Pools of pending transactions

A pool holds at most one transaction for each sender and sequence. Four structures are kept in
step: the ranks in the order of selection, each sender's transactions by sequence, the number of
transactions of each priority, and the slot of each digest.

`insert` puts a transaction into its slot. It refuses a transaction without a sender, a replacement
that the policy vetoes and a new slot in a full pool; a replacement is never refused for lack of
room. `remove` takes out the transaction with a digest. A refusal leaves the pool as it was.
-/
namespace BlockBuilder

inductive PoolError where
  | notFound (digest : Digest)
  | full (capacity : Nat)
  | noSigner (digest : Digest)
  | replacementRefused (digest : Digest) (sender : Address) (sequence : UInt64)
  deriving DecidableEq, Inhabited

def PoolError.message : PoolError → String
  | .notFound digest => s!"Transaction {digest} not found in mempool"
  | .full capacity => s!"Mempool is full: capacity of {capacity} transactions reached"
  | .noSigner digest => s!"Transaction {digest} has no signers"
  | .replacementRefused digest sender sequence =>
    s!"Transaction {digest} does not satisfy the replacement rule for sender {sender} sequence {sequence}"

structure Policy (T V : Type) where
  -- zero means any number of transactions
  capacity : Nat := 0
  /-- Whether the holder of a slot may give way: its priority, the newcomer's, and both
  transactions. -/
  mayReplace : V → V → T → T → Bool := fun _ _ _ _ => true

structure Entry (T V : Type) where
  priority : V
  weight : Option V
  sealedTx : SealedTx T

def Entry.rank {T V : Type} (entry : Entry T V) (sender : Address) (sequence : UInt64) : Rank V :=
  ⟨entry.priority, entry.weight, sender, sequence⟩

abbrev Queue (T V : Type) := Std.TreeMap UInt64 (Entry T V)

structure Pool (T V : Type) [Ord V] where
  policy : Policy T V
  ranks : Std.TreeSet (Rank V) := ∅
  queues : Std.TreeMap Address (Queue T V) := ∅
  tally : Std.TreeMap V Nat := ∅
  slots : Std.HashMap Digest (Address × UInt64) := ∅

namespace Pool

variable {T V : Type} [Ord V]

def empty (policy : Policy T V) : Pool T V := { policy }

def size (pool : Pool T V) : Nat := pool.ranks.size

def isEmpty (pool : Pool T V) : Bool := pool.ranks.isEmpty

def contains (pool : Pool T V) (digest : Digest) : Bool := pool.slots.contains digest

def entry? (pool : Pool T V) (sender : Address) (sequence : UInt64) : Option (Entry T V) :=
  (pool.queues[sender]?).bind (·[sequence]?)

def get? (pool : Pool T V) (digest : Digest) : Option (SealedTx T) := do
  let (sender, sequence) ← pool.slots[digest]?
  let entry ← pool.entry? sender sequence
  return entry.sealedTx

def countAt (pool : Pool T V) (priority : V) : Nat := pool.tally.getD priority 0

def uncount (tally : Std.TreeMap V Nat) (priority : V) : Std.TreeMap V Nat :=
  match tally[priority]? with
  | none => tally
  | some count => if count ≤ 1 then tally.erase priority else tally.insert priority (count - 1)

def withdraw (pool : Pool T V) (rank : Rank V) (digest : Digest) : Pool T V :=
  { pool with
    ranks := pool.ranks.erase rank
    tally := uncount pool.tally rank.priority
    slots := pool.slots.erase digest }

/-- Fills a slot with a transaction whose weight is not yet known. -/
def place (pool : Pool T V) (priority : V) (sender : Address) (sequence : UInt64)
    (sealedTx : SealedTx T) : Pool T V :=
  { pool with
    ranks := pool.ranks.insert ⟨priority, none, sender, sequence⟩
    queues := pool.queues.insert sender
      ((pool.queues.getD sender ∅).insert sequence ⟨priority, none, sealedTx⟩)
    tally := pool.tally.insert priority (pool.countAt priority + 1)
    slots := pool.slots.insert sealedTx.digest (sender, sequence) }

def isFull (pool : Pool T V) : Bool :=
  0 < pool.policy.capacity && pool.policy.capacity ≤ pool.size

def insert [Transaction T] (pool : Pool T V) (priority : V) (sealedTx : SealedTx T) :
    Except PoolError (Pool T V) :=
  match Transaction.sender? sealedTx.tx with
  | none => .error (.noSigner sealedTx.digest)
  | some sender =>
    let sequence := Transaction.sequence sealedTx.tx
    match pool.entry? sender sequence with
    | some holder =>
      if pool.policy.mayReplace holder.priority priority holder.sealedTx.tx sealedTx.tx then
        .ok ((pool.withdraw (holder.rank sender sequence) holder.sealedTx.digest).place
          priority sender sequence sealedTx)
      else .error (.replacementRefused sealedTx.digest sender sequence)
    | none =>
      if pool.isFull then .error (.full pool.policy.capacity)
      else .ok (pool.place priority sender sequence sealedTx)

def clearSlot (queues : Std.TreeMap Address (Queue T V)) (sender : Address) (sequence : UInt64) :
    Std.TreeMap Address (Queue T V) :=
  match queues[sender]? with
  | none => queues
  | some queue =>
    let rest := queue.erase sequence
    if rest.isEmpty then queues.erase sender else queues.insert sender rest

def remove (pool : Pool T V) (digest : Digest) : Except PoolError (Pool T V) :=
  match pool.slots[digest]? with
  | none => .error (.notFound digest)
  | some (sender, sequence) =>
    match pool.entry? sender sequence with
    | none => .error (.notFound digest)
    | some entry =>
      let pool := pool.withdraw (entry.rank sender sequence) digest
      .ok { pool with queues := clearSlot pool.queues sender sequence }

def removeAll (pool : Pool T V) (digests : List Digest) : Pool T V :=
  digests.foldl (fun pool digest => (pool.remove digest).toOption.getD pool) pool

end Pool

end BlockBuilder
