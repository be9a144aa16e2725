import Mathlib.Data.List.Perm.Basic
import BlockBuilder.Ledger.Transaction
import BlockBuilder.Proofs.Pool.Runs

namespace BlockBuilder

namespace Pool

variable {T V : Type} [Ord V] {pool after : Pool T V} {slot : Slot} {entry : Entry T V}
  {sealedTx : SealedTx T}

def newcomers (operations : List (Operation T V)) : List (SealedTx T) :=
  operations.filterMap fun
    | .insert _ sealedTx => some sealedTx
    | _ => none

def DigestsFixSlots [Transaction T] (txs : List (SealedTx T)) : Prop :=
  ∀ first ∈ txs, ∀ second ∈ txs, first.digest = second.digest → first.slot? = second.slot?

instance [Transaction T] (txs : List (SealedTx T)) : Decidable (DigestsFixSlots txs) :=
  inferInstanceAs (Decidable (∀ first ∈ txs, ∀ second ∈ txs, _ → _))

theorem holds_of_entryAt (found : pool.entryAt slot = some entry) : pool.Holds entry.sealedTx :=
  ⟨slot.1, slot.2, entry, found, rfl⟩

theorem Tracks.ranks_perm [DecidableEq V] [Std.TransOrd V] [Std.LawfulEqOrd V]
    (tracks : pool.Tracks pool.entryAt) :
    pool.ranks.toList.Perm (pool.filled.map fun (slot, entry) => entry.rank slot.1 slot.2) := by
  refine (List.perm_ext_iff_of_nodup ?_ ?_).mpr fun rank => ?_
  · exact pool.nodup_ranks
  · refine List.Nodup.of_map Rank.slot ?_
    rw [List.map_map]
    exact pool.nodup_filled_slots
  · rw [Std.TreeSet.mem_toList, tracks.ranked]
    simp only [List.mem_map, Prod.exists, mem_filled_iff]
    constructor
    · rintro ⟨entry, found, same⟩
      exact ⟨rank.sender, rank.sequence, entry, found, same⟩
    · rintro ⟨sender, sequence, entry, found, rfl⟩
      exact ⟨entry, found, rfl⟩

theorem Indexes.remove {digest : Digest} (indexes : pool.Indexes pool.entryAt)
    (done : pool.remove digest = .ok after) : after.Indexes after.entryAt := by
  obtain ⟨slot, entry, located, found, rfl⟩ := remove_eq_ok done
  obtain ⟨_, same, rfl⟩ := (indexes digest slot).mp located
  cases found.symm.trans same
  have withdrawn := indexes.withdraw found (entry.rank slot.1 slot.2)
  rw [← entryAt_clearSlot] at withdrawn
  exact withdrawn

theorem Indexes.exists_remove (indexes : pool.Indexes pool.entryAt) {digest : Digest}
    (located : pool.slots[digest]? = some slot) :
    (∃ queue entry, pool.queues[slot.1]? = some queue ∧ queue[slot.2]? = some entry) ∧
      ∃ after, pool.remove digest = .ok after := by
  obtain ⟨entry, found, -⟩ := (indexes digest slot).mp located
  obtain ⟨queue, known, listed⟩ := entryAt_eq_some_iff.mp found
  refine ⟨⟨queue, entry, known, listed⟩, ?_⟩
  have held : pool.entry? slot.1 slot.2 = some entry := found
  simp [Pool.remove, located, held]

variable [Transaction T] [DecidableEq V]

theorem Aligned.exists_of_holds (aligned : pool.Aligned) (holds : pool.Holds sealedTx) :
    ∃ slot entry, pool.entryAt slot = some entry ∧ sealedTx.slot? = some slot ∧
      entry.sealedTx = sealedTx := by
  obtain ⟨sender, sequence, entry, found, rfl⟩ := holds
  exact ⟨(sender, sequence), entry, found, aligned.seated found, rfl⟩

theorem Holds.of_perform {operation : Operation T V} (done : pool.perform operation = .ok after)
    (holds : after.Holds sealedTx) :
    pool.Holds sealedTx ∨ ∃ priority, operation = .insert priority sealedTx := by
  cases operation with
  | insert priority inserted =>
    rcases Holds.of_insert done holds with held | rfl
    · exact .inl held
    · exact .inr ⟨priority, rfl⟩
  | remove digest => exact .inl (Holds.of_remove done holds)
  | settle =>
    cases done
    exact .inl (holds_settle_iff.mp holds)
  | select =>
    cases done
    exact .inl (holds_settle_iff.mp holds)

theorem Indexes.insert {priority : V} (indexes : pool.Indexes pool.entryAt) (aligned : pool.Aligned)
    (fixed : ∀ held, pool.Holds held → held.digest = sealedTx.digest → held.slot? = sealedTx.slot?)
    (done : pool.insert priority sealedTx = .ok after) : after.Indexes after.entryAt := by
  obtain ⟨slot, meant, outcome⟩ := insert_eq_ok done
  -- another slot's transaction is meant for that slot, so it has another digest
  have fresh (other : Slot) (rival : Entry T V)
      (met : Function.update pool.entryAt slot none other = some rival) :
      rival.sealedTx.digest ≠ sealedTx.digest := by
    intro same
    rw [Function.update_apply] at met
    split at met
    · cases met
    · rename_i differ
      have own := fixed _ (holds_of_entryAt met) same
      rw [aligned.seated met, meant] at own
      exact differ (Option.some.inj own)
  rcases outcome with ⟨vacant, -, rfl⟩ | ⟨holder, held, rfl⟩
  · rw [entryAt_place]
    rw [← vacant, Function.update_eq_self] at fresh
    exact indexes.place vacant priority fresh
  · have placed := (indexes.withdraw held (holder.rank slot.1 slot.2)).place (Function.update_self ..)
      priority fresh
    rw [Function.update_idem] at placed
    rw [entryAt_place]
    exact placed

variable [Std.TransOrd V] [Std.LawfulEqOrd V]

theorem Indexes.settle (indexes : pool.Indexes pool.entryAt) (aligned : pool.Aligned) :
    pool.settle.Indexes pool.settle.entryAt := by
  refine (settle_induction (motive := fun _ pool => pool.Indexes pool.entryAt) aligned indexes ?_).2
  intro pool rank weight rest aligned ranked indexes
  obtain ⟨entry, found, -⟩ := aligned.exists_entryAt ranked
  rw [entryAt_reweigh rank weight found]
  exact indexes.reweigh found rank weight

theorem indexes_run (policy : Policy T V) {operations : List (Operation T V)}
    (fixed : DigestsFixSlots (newcomers operations)) :
    let pool := (empty policy).run operations
    pool.Indexes pool.entryAt := by
  refine (run_induction (motive := fun pool => (pool.Aligned ∧ pool.Indexes pool.entryAt) ∧
    ∀ sealedTx, pool.Holds sealedTx → sealedTx ∈ newcomers operations) ?_ ?_).1.2
  · refine ⟨⟨aligned_empty policy, ?_⟩, fun _ holds => absurd holds not_holds_empty⟩
    have nothing : (empty policy).entryAt = fun _ => none := funext fun _ => entryAt_empty policy
    exact nothing ▸ indexes_empty policy
  · rintro operation mem pool after ⟨⟨aligned, indexes⟩, held⟩ done
    refine ⟨⟨aligned.perform done, ?_⟩, ?_⟩
    · cases operation with
      | insert priority sealedTx =>
        have brought : sealedTx ∈ newcomers operations := List.mem_filterMap.mpr ⟨_, mem, rfl⟩
        exact indexes.insert aligned (fun other holds => fixed other (held other holds) _ brought) done
      | remove digest => exact indexes.remove done
      | settle =>
        cases done
        exact indexes.settle aligned
      | select =>
        cases done
        exact indexes.settle aligned
    · intro sealedTx holds
      rcases holds.of_perform done with before | ⟨priority, rfl⟩
      · exact held sealedTx before
      · exact List.mem_filterMap.mpr ⟨_, mem, rfl⟩

def population (pool : Pool T V) (priority : V) : Nat :=
  pool.filled.countP fun (_, entry) => entry.priority = priority

structure WellFormed (pool : Pool T V) : Prop where
  ranked : pool.ranks.toList.Perm (pool.filled.map fun (slot, entry) => entry.rank slot.1 slot.2)
  occupied (sender : Address) (queue : Queue T V) (found : pool.queues[sender]? = some queue) :
    queue.isEmpty = false
  counted (priority : V) : pool.countAt priority = pool.population priority
  positive (priority : V) : pool.tally[priority]? ≠ some 0
  indexed (digest : Digest) (slot : Slot) : pool.slots[digest]? = some slot ↔
    ∃ entry, pool.entryAt slot = some entry ∧ entry.sealedTx.digest = digest

theorem Aligned.size_eq (aligned : pool.Aligned) : pool.size = pool.filled.length := by
  rw [size, ← Std.TreeSet.length_toList, aligned.tracks.ranks_perm.length_eq, List.length_map]

theorem Aligned.wellFormed (aligned : pool.Aligned) (indexes : pool.Indexes pool.entryAt) :
    pool.WellFormed where
  ranked := aligned.tracks.ranks_perm
  occupied _ _ := aligned.occupied
  counted priority := by
    rw [aligned.tracks.counted, aligned.tracks.ranks_perm.countP_eq, List.countP_map]
    rfl
  positive := aligned.tracks.positive
  indexed := indexes

/-- After any sequence of operations the four structures of a pool describe the same transactions,
the pool's size is their number, and a digest that is known can be removed. -/
theorem wellFormed_run (policy : Policy T V) (operations : List (Operation T V))
    (fixed : DigestsFixSlots (newcomers operations)) :
    let pool := (empty policy).run operations
    pool.WellFormed ∧ pool.size = pool.filled.length ∧
      ∀ digest slot, pool.slots[digest]? = some slot →
        (∃ queue entry, pool.queues[slot.1]? = some queue ∧ queue[slot.2]? = some entry) ∧
          ∃ after, pool.remove digest = .ok after := by
  intro pool
  have aligned : pool.Aligned := (aligned_empty policy).run operations
  have indexes : pool.Indexes pool.entryAt := indexes_run policy fixed
  exact ⟨aligned.wellFormed indexes, aligned.size_eq, fun digest slot => indexes.exists_remove⟩

open Ledger in
/-- Two senders share a priority, so that one of them is ranked with a weight when it is replaced by
a transaction of another digest. -/
theorem wellFormed_run_of_replacement :
    let first := SealedTx.ofParts (Tx.transfer (Address.ofIndex 1) 0 0) [1]
    let follower := SealedTx.ofParts (Tx.transfer (Address.ofIndex 1) 1 0) [2]
    let rival := SealedTx.ofParts (Tx.transfer (Address.ofIndex 2) 0 0) [3]
    let replacement := SealedTx.ofParts (Tx.transfer (Address.ofIndex 1) 0 5) [4]
    let operations : List (Operation Tx UInt64) :=
      [.insert 7 first, .insert 3 follower, .insert 7 rival, .select, .insert 7 replacement, .settle,
        .remove first.digest, .remove rival.digest]
    let pool := (empty {}).run operations
    DigestsFixSlots (newcomers operations) ∧ pool.WellFormed ∧ pool.size = pool.filled.length ∧
      ∀ digest slot, pool.slots[digest]? = some slot →
        (∃ queue entry, pool.queues[slot.1]? = some queue ∧ queue[slot.2]? = some entry) ∧
          ∃ after, pool.remove digest = .ok after := by
  intro first follower rival replacement operations pool
  have fixed : DigestsFixSlots (newcomers operations) := by decide +kernel
  exact ⟨fixed, wellFormed_run {} operations fixed⟩

end Pool

end BlockBuilder
