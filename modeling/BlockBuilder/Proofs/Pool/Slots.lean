import Mathlib.Data.List.Nodup
import BlockBuilder.Proofs.Pool.Holding

namespace BlockBuilder

abbrev Slot := Address × UInt64

def SealedTx.slot? {T : Type} [Transaction T] (sealedTx : SealedTx T) : Option Slot :=
  (Transaction.sender? sealedTx.tx).map fun sender => (sender, Transaction.sequence sealedTx.tx)

theorem SealedTx.slot?_eq_some_iff {T : Type} [Transaction T] {sealedTx : SealedTx T} {slot : Slot} :
    sealedTx.slot? = some slot ↔
      Transaction.sender? sealedTx.tx = some slot.1 ∧ Transaction.sequence sealedTx.tx = slot.2 := by
  simp [slot?, Prod.ext_iff]

def Rank.slot {V : Type} (rank : Rank V) : Slot := (rank.sender, rank.sequence)

@[simp] theorem Rank.slot_fst {V : Type} (rank : Rank V) : rank.slot.1 = rank.sender := rfl

@[simp] theorem Rank.slot_snd {V : Type} (rank : Rank V) : rank.slot.2 = rank.sequence := rfl

namespace Pool

variable {T V : Type} [Ord V] {pool : Pool T V} {slot : Slot} {entry : Entry T V}

def entryAt (pool : Pool T V) (slot : Slot) : Option (Entry T V) := pool.entry? slot.1 slot.2

def filled (pool : Pool T V) : List (Slot × Entry T V) :=
  pool.queues.toList.flatMap fun (sender, queue) =>
    queue.toList.map fun (sequence, entry) => ((sender, sequence), entry)

theorem entryAt_eq_some_iff :
    pool.entryAt slot = some entry ↔
      ∃ queue, pool.queues[slot.1]? = some queue ∧ queue[slot.2]? = some entry :=
  Option.bind_eq_some_iff

theorem mem_filled_iff : (slot, entry) ∈ pool.filled ↔ pool.entryAt slot = some entry := by
  simp only [filled, List.mem_flatMap, List.mem_map, Prod.exists, Prod.mk.injEq,
    Std.TreeMap.mem_toList_iff_getElem?_eq_some, entryAt_eq_some_iff]
  constructor
  · rintro ⟨sender, queue, found, sequence, entry, listed, rfl, rfl⟩
    exact ⟨queue, found, listed⟩
  · rintro ⟨queue, found, listed⟩
    exact ⟨slot.1, queue, found, slot.2, entry, listed, rfl, rfl⟩

theorem getElem?_queue (pool : Pool T V) (sender : Address) (sequence : UInt64) :
    (pool.queues.getD sender ∅)[sequence]? = pool.entryAt (sender, sequence) := by
  rw [Std.TreeMap.getD_eq_getD_getElem?, entryAt, entry?]
  cases pool.queues[sender]? with
  | none => simp
  | some queue => rfl

theorem mem_queue_iff {sender : Address} {sequence : UInt64} :
    (sequence, entry) ∈ (pool.queues.getD sender ∅).toList ↔
      pool.entryAt (sender, sequence) = some entry := by
  rw [Std.TreeMap.mem_toList_iff_getElem?_eq_some, getElem?_queue]

theorem nodup_filled_slots (pool : Pool T V) : (pool.filled.map Prod.fst).Nodup := by
  rw [filled, List.map_flatMap, List.nodup_flatMap]
  constructor
  · rintro ⟨sender, queue⟩ -
    rw [List.map_map]
    have distinct := queue.distinct_keys_toList
    refine List.pairwise_map.mpr (distinct.imp ?_)
    intro first second differ same
    cases first
    cases second
    simp_all
  · refine pool.queues.distinct_keys_toList.imp ?_
    rintro ⟨sender, queue⟩ ⟨other, others⟩ differ
    simp only [List.map_map, Function.onFun, List.disjoint_left, List.mem_map, Prod.exists]
    rintro slot ⟨sequence, entry, -, rfl⟩ ⟨_, _, -, same⟩
    simp_all

theorem entryAt_empty (policy : Policy T V) : (empty policy).entryAt slot = none := by
  simp [entryAt, empty, entry?]

theorem entryAt_place (pool : Pool T V) (priority : V) (slot : Slot) (sealedTx : SealedTx T) :
    (pool.place priority slot.1 slot.2 sealedTx).entryAt =
      Function.update pool.entryAt slot (some ⟨priority, none, sealedTx⟩) := by
  funext other
  rw [entryAt, entry?_place, Function.update_apply]
  simp only [← Prod.ext_iff, eq_comm (a := slot), entryAt]

theorem entryAt_clearSlot (pool : Pool T V) (slot : Slot) :
    entryAt { pool with queues := clearSlot pool.queues slot.1 slot.2 } =
      Function.update pool.entryAt slot none := by
  funext other
  rw [entryAt, entry?_clearSlot, Function.update_apply]
  simp only [← Prod.ext_iff, eq_comm (a := slot), entryAt]

theorem entryAt_reweigh (rank : Rank V) (weight : V) (found : pool.entryAt rank.slot = some entry) :
    (pool.reweigh rank weight).entryAt =
      Function.update pool.entryAt rank.slot (some { entry with weight := some weight }) := by
  funext other
  rw [entryAt, entry?_reweigh, Function.update_apply]
  by_cases same : other = rank.slot
  · subst same
    have held : pool.entry? rank.sender rank.sequence = some entry := found
    simp [held]
  · have differ : ¬(rank.sender = other.1 ∧ rank.sequence = other.2) := by
      rintro ⟨sender, sequence⟩
      exact same (Prod.ext sender.symm sequence.symm)
    simp [same, differ, entryAt]

end Pool

end BlockBuilder
