import BlockBuilder.Pool.Basic

/-!
# Selection from a pool

Selection follows the ranks, but never takes a sender's transactions out of sequence: at each rank
it takes from the front of the sender's queue for as long as the front does not come after the next
rank. A transaction whose turn has gone by with an earlier one of its sender in front is taken as
soon as that one is.

Transactions of equal priority are told apart by weight: the first later priority in the sender's
queue that differs from their own. Weights are brought up to date by `settle`, and only where a
priority is shared; `select` settles first and `traverse` uses the weights as they are.
-/
namespace BlockBuilder

namespace Pool

variable {T V : Type} [Ord V]

/-- The first priority after a sequence number that differs from a given one, or that one. -/
def laterPriority [DecidableEq V] (queue : Queue T V) (sequence : UInt64) (own : V) : V :=
  ((queue.toList.filter fun (later, _) => sequence < later).map fun (_, entry) => entry.priority)
    |>.find? (fun priority => priority ≠ own) |>.getD own

def weight? [DecidableEq V] (pool : Pool T V) (sender : Address) (sequence : UInt64) : Option V := do
  let queue ← pool.queues[sender]?
  let entry ← queue[sequence]?
  return laterPriority queue sequence entry.priority

/-- The new weight of a rank, if its priority is shared and its weight is out of date. -/
def staleWeight? [DecidableEq V] (pool : Pool T V) (rank : Rank V) : Option (Rank V × V) :=
  if 1 < pool.countAt rank.priority then
    (pool.weight? rank.sender rank.sequence).bind fun weight =>
      if rank.weight = some weight then none else some (rank, weight)
  else none

def reweigh (pool : Pool T V) (rank : Rank V) (weight : V) : Pool T V :=
  { pool with
    ranks := (pool.ranks.erase rank).insert { rank with weight := some weight }
    queues := match pool.queues[rank.sender]? with
      | none => pool.queues
      | some queue => pool.queues.insert rank.sender
          (queue.modify rank.sequence fun entry => { entry with weight := some weight }) }

def settle [DecidableEq V] (pool : Pool T V) : Pool T V :=
  (pool.ranks.toList.filterMap pool.staleWeight?).foldl
    (fun pool (rank, weight) => pool.reweigh rank weight) pool

abbrev Remaining (T V : Type) := Std.TreeMap Address (List (Entry T V))

def remaining (pool : Pool T V) : Remaining T V :=
  pool.queues.map fun _ queue => queue.toList.map Prod.snd

/-- Whether an entry may still be taken before the next of the ranks. -/
def inTurn (next : Option (Rank V)) (entry : Entry T V) : Bool :=
  match next with
  | none => true
  | some rank => !Rank.isAfter entry.priority entry.weight rank

/-- Takes at each rank from the front of the sender's queue until the next rank's turn. -/
def walk : List (Rank V) → Remaining T V → List (SealedTx T)
  | [], _ => []
  | rank :: rest, remaining =>
    let queue := remaining.getD rank.sender []
    let taken := queue.takeWhile (inTurn rest.head?)
    taken.map Entry.sealedTx ++
      walk rest (remaining.insert rank.sender (queue.dropWhile (inTurn rest.head?)))

def traverse (pool : Pool T V) : List (SealedTx T) := walk pool.ranks.toList pool.remaining

def select [DecidableEq V] (pool : Pool T V) : List (SealedTx T) × Pool T V :=
  (pool.settle.traverse, pool.settle)

end Pool

end BlockBuilder
