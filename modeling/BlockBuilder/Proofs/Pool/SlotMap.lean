import Std.Data.ExtHashMap
import BlockBuilder.Proofs.Pool.Consistency

namespace BlockBuilder

instance : EquivBEq Slot := inferInstance

instance : LawfulHashable Slot := inferInstance

abbrev Holding (T V : Type) := Std.ExtHashMap Slot (V × SealedTx T)

/-- The answer of a map from slots to an operation, with the map after it unless it is refused. -/
inductive Holding.Performs {T V : Type} [Transaction T] (policy : Policy T V) (held : Holding T V) :
    Pool.Operation T V → Except PoolError (Holding T V) → Prop
  | unsigned {priority : V} {sealedTx : SealedTx T} (unsigned : sealedTx.slot? = none) :
      Performs policy held (.insert priority sealedTx) (.error (.noSigner sealedTx.digest))
  | vetoed {priority old : V} {sealedTx holder : SealedTx T} {slot : Slot}
      (meant : sealedTx.slot? = some slot) (occupied : held[slot]? = some (old, holder))
      (vetoed : policy.mayReplace old priority holder.tx sealedTx.tx = false) :
      Performs policy held (.insert priority sealedTx)
        (.error (.replacementRefused sealedTx.digest slot.1 slot.2))
  | replaced {priority old : V} {sealedTx holder : SealedTx T} {slot : Slot}
      (meant : sealedTx.slot? = some slot) (occupied : held[slot]? = some (old, holder))
      (allowed : policy.mayReplace old priority holder.tx sealedTx.tx = true) :
      Performs policy held (.insert priority sealedTx) (.ok (held.insert slot (priority, sealedTx)))
  | full {priority : V} {sealedTx : SealedTx T} {slot : Slot} (meant : sealedTx.slot? = some slot)
      (free : held[slot]? = none) (bounded : 0 < policy.capacity)
      (full : policy.capacity ≤ held.size) :
      Performs policy held (.insert priority sealedTx) (.error (.full policy.capacity))
  | added {priority : V} {sealedTx : SealedTx T} {slot : Slot} (meant : sealedTx.slot? = some slot)
      (free : held[slot]? = none) (room : policy.capacity = 0 ∨ held.size < policy.capacity) :
      Performs policy held (.insert priority sealedTx) (.ok (held.insert slot (priority, sealedTx)))
  | removed {digest : Digest} {slot : Slot} {priority : V} {sealedTx : SealedTx T}
      (found : held[slot]? = some (priority, sealedTx)) (same : sealedTx.digest = digest)
      (alone : ∀ other priority rival, held[other]? = some (priority, rival) →
        rival.digest = digest → other = slot) :
      Performs policy held (.remove digest) (.ok (held.erase slot))
  | missing {digest : Digest} (missing : ∀ (slot : Slot) priority sealedTx,
        held[slot]? = some (priority, sealedTx) → sealedTx.digest ≠ digest) :
      Performs policy held (.remove digest) (.error (.notFound digest))
  | settled : Performs policy held .settle (.ok held)
  | selected : Performs policy held .select (.ok held)

theorem Holding.Performs.size_le {T V : Type} [Transaction T] {policy : Policy T V}
    {held next : Holding T V} {priority : V} {sealedTx : SealedTx T}
    (performed : held.Performs policy (.insert priority sealedTx) (.ok next))
    (bounded : 0 < policy.capacity) (within : held.size ≤ policy.capacity) :
    next.size ≤ policy.capacity := by
  cases performed with
  | replaced meant occupied allowed =>
    have known := Std.ExtHashMap.mem_iff_isSome_getElem?.mpr (Option.isSome_of_eq_some occupied)
    rwa [Std.ExtHashMap.size_insert, if_pos known]
  | added meant free room =>
    rw [Std.ExtHashMap.size_insert]
    split <;> omega

namespace Pool

variable {T V : Type} [Ord V] {pool after : Pool T V} {slot : Slot} {entry : Entry T V}
  {sealedTx : SealedTx T} {priority : V}

def holding (pool : Pool T V) : Holding T V :=
  .ofList (pool.filled.map fun (slot, entry) => (slot, entry.priority, entry.sealedTx))

theorem pairwise_held (pool : Pool T V) :
    (pool.filled.map fun (slot, entry) => (slot, entry.priority, entry.sealedTx)).Pairwise
      fun first second => (first.1 == second.1) = false := by
  refine List.pairwise_map.mpr ((List.pairwise_map.mp pool.nodup_filled_slots).imp ?_)
  intro first second differ
  exact beq_false_of_ne differ

theorem size_holding (pool : Pool T V) : pool.holding.size = pool.filled.length := by
  rw [holding, Std.ExtHashMap.size_ofList pool.pairwise_held, List.length_map]

theorem getElem?_holding (pool : Pool T V) (slot : Slot) :
    pool.holding[slot]? = (pool.entryAt slot).map fun entry => (entry.priority, entry.sealedTx) := by
  cases found : pool.entryAt slot with
  | none =>
    apply Std.ExtHashMap.getElem?_ofList_of_contains_eq_false
    simp [mem_filled_iff, found]
  | some entry =>
    refine Std.ExtHashMap.getElem?_ofList_of_mem (beq_self_eq_true slot) pool.pairwise_held ?_
    exact List.mem_map.mpr ⟨(slot, entry), mem_filled_iff.mpr found, rfl⟩

theorem holding_place (pool : Pool T V) (priority : V) (slot : Slot) (sealedTx : SealedTx T) :
    (pool.place priority slot.1 slot.2 sealedTx).holding =
      pool.holding.insert slot (priority, sealedTx) := by
  ext other
  rw [Std.ExtHashMap.getElem?_insert, getElem?_holding, getElem?_holding, entryAt_place,
    Function.update_apply]
  by_cases here : other = slot
  · simp [here]
  · simp [here, Ne.symm here]

theorem holding_clearSlot (pool : Pool T V) (slot : Slot) :
    holding { pool with queues := clearSlot pool.queues slot.1 slot.2 } = pool.holding.erase slot := by
  ext other
  rw [Std.ExtHashMap.getElem?_erase, getElem?_holding, getElem?_holding, entryAt_clearSlot,
    Function.update_apply]
  by_cases here : other = slot
  · simp [here]
  · simp [here, Ne.symm here]

theorem holding_reweigh {rank : Rank V} (found : pool.entryAt rank.slot = some entry) (weight : V) :
    (pool.reweigh rank weight).holding = pool.holding := by
  ext other
  rw [getElem?_holding, getElem?_holding, entryAt_reweigh rank weight found, Function.update_apply]
  by_cases here : other = rank.slot
  · simp [here, found]
  · simp [here]

theorem holding_eq_some_iff : pool.holding[slot]? = some (priority, sealedTx) ↔
    ∃ entry, pool.entryAt slot = some entry ∧ entry.priority = priority ∧ entry.sealedTx = sealedTx := by
  simp [getElem?_holding]

theorem Indexes.contains_iff (indexes : pool.Indexes pool.entryAt) (digest : Digest) :
    pool.contains digest = true ↔ ∃ (slot : Slot) (priority : V) (sealedTx : SealedTx T),
      pool.holding[slot]? = some (priority, sealedTx) ∧ sealedTx.digest = digest := by
  simp only [contains, Std.HashMap.contains_eq_isSome_getElem?, Option.isSome_iff_exists,
    indexes digest, holding_eq_some_iff]
  constructor
  · rintro ⟨slot, entry, found, rfl⟩
    exact ⟨slot, entry.priority, entry.sealedTx, ⟨entry, found, rfl, rfl⟩, rfl⟩
  · rintro ⟨slot, _, _, ⟨entry, found, rfl, rfl⟩, rfl⟩
    exact ⟨slot, entry, found, rfl⟩

theorem Indexes.get?_eq_some_iff (indexes : pool.Indexes pool.entryAt) (digest : Digest) :
    pool.get? digest = some sealedTx ↔ ∃ (slot : Slot) (priority : V),
      pool.holding[slot]? = some (priority, sealedTx) ∧ sealedTx.digest = digest := by
  simp only [get?, Option.bind_eq_bind, Option.bind_eq_some_iff, Option.pure_def, Option.some.injEq,
    holding_eq_some_iff]
  constructor
  · rintro ⟨slot, located, entry, found, rfl⟩
    obtain ⟨_, met, rfl⟩ := (indexes digest slot).mp located
    cases found.symm.trans met
    exact ⟨slot, entry.priority, ⟨entry, found, rfl, rfl⟩, rfl⟩
  · rintro ⟨slot, _, ⟨entry, found, rfl, rfl⟩, rfl⟩
    exact ⟨slot, (indexes _ slot).mpr ⟨entry, found, rfl⟩, entry, found, rfl⟩

variable [Transaction T]

theorem policy_insert (done : pool.insert priority sealedTx = .ok after) :
    after.policy = pool.policy := by
  obtain ⟨slot, -, ⟨-, -, rfl⟩ | ⟨holder, -, rfl⟩⟩ := insert_eq_ok done
  · rfl
  · rfl

theorem Indexes.performs_remove (indexes : pool.Indexes pool.entryAt) (digest : Digest) :
    pool.holding.Performs pool.policy (.remove digest) ((pool.remove digest).map holding) := by
  cases located : pool.slots[digest]? with
  | none =>
    have refused : pool.remove digest = .error (.notFound digest) := by simp [Pool.remove, located]
    rw [refused]
    refine .missing fun slot priority sealedTx held same => ?_
    obtain ⟨entry, found, -, rfl⟩ := holding_eq_some_iff.mp held
    have known := (indexes digest slot).mpr ⟨entry, found, same⟩
    rw [located] at known
    cases known
  | some slot =>
    obtain ⟨entry, found, same⟩ := (indexes digest slot).mp located
    obtain ⟨-, after, done⟩ := indexes.exists_remove located
    obtain ⟨_, _, here, there, rfl⟩ := remove_eq_ok done
    cases located.symm.trans here
    cases found.symm.trans there
    rw [done]
    refine Eq.subst (congrArg Except.ok ?_) (Holding.Performs.removed
      (holding_eq_some_iff.mpr ⟨entry, found, rfl, rfl⟩) same ?_)
    · exact (holding_clearSlot (pool.withdraw (entry.rank slot.1 slot.2) digest) slot).symm
    · intro other priority rival held alike
      obtain ⟨_, met, -, rfl⟩ := holding_eq_some_iff.mp held
      exact indexes.eq_of_digest_eq found met (alike.trans same.symm)

variable [DecidableEq V] [Std.TransOrd V] [Std.LawfulEqOrd V]

theorem Aligned.holding_settle (aligned : pool.Aligned) : pool.settle.holding = pool.holding :=
  aligned.settle_eq holding fun _ _ _ weight found => holding_reweigh found weight

theorem Aligned.policy_settle (aligned : pool.Aligned) : pool.settle.policy = pool.policy :=
  aligned.settle_eq policy fun _ _ _ _ _ => rfl

theorem Aligned.performs_insert (aligned : pool.Aligned) (priority : V) (sealedTx : SealedTx T) :
    pool.holding.Performs pool.policy (.insert priority sealedTx)
      ((pool.insert priority sealedTx).map holding) := by
  unfold Pool.insert
  split
  · rename_i unsigned
    exact .unsigned (by simp [SealedTx.slot?, unsigned])
  · rename_i sender signed
    have meant : sealedTx.slot? = some (sender, Transaction.sequence sealedTx.tx) := by
      simp [SealedTx.slot?, signed]
    dsimp only
    generalize Transaction.sequence sealedTx.tx = sequence at meant ⊢
    split
    · rename_i holder found
      have occupied : pool.holding[(sender, sequence)]? = some (holder.priority, holder.sealedTx) :=
        holding_eq_some_iff.mpr ⟨holder, found, rfl, rfl⟩
      split
      · rename_i allowed
        refine Eq.subst (congrArg Except.ok ?_) (Holding.Performs.replaced meant occupied allowed)
        exact (holding_place (pool.withdraw (holder.rank sender sequence) holder.sealedTx.digest)
          priority (sender, sequence) sealedTx).symm
      · rename_i vetoed
        exact .vetoed meant occupied (Bool.eq_false_iff.mpr vetoed)
    · rename_i vacant
      have free : pool.holding[(sender, sequence)]? = none := by
        rw [getElem?_holding]
        exact congrArg (Option.map _) vacant
      have full_iff : pool.isFull = true ↔
          0 < pool.policy.capacity ∧ pool.policy.capacity ≤ pool.holding.size := by
        simp [isFull, size_holding, aligned.size_eq]
      split
      · rename_i full
        exact .full meant free (full_iff.mp full).1 (full_iff.mp full).2
      · rename_i room
        refine Eq.subst (congrArg Except.ok ?_) (Holding.Performs.added meant free ?_)
        · exact (holding_place pool priority (sender, sequence) sealedTx).symm
        · rw [full_iff] at room
          omega

theorem Aligned.performs (aligned : pool.Aligned) (indexes : pool.Indexes pool.entryAt)
    (operation : Operation T V) :
    pool.holding.Performs pool.policy operation ((pool.perform operation).map holding) := by
  cases operation with
  | insert priority sealedTx => exact aligned.performs_insert priority sealedTx
  | remove digest => exact indexes.performs_remove digest
  | settle =>
    exact Eq.subst (congrArg Except.ok aligned.holding_settle.symm) Holding.Performs.settled
  | select =>
    exact Eq.subst (congrArg Except.ok aligned.holding_settle.symm) Holding.Performs.selected

theorem policy_run (policy : Policy T V) (operations : List (Operation T V)) :
    let pool := (empty policy).run operations
    pool.policy = policy ∧ (0 < policy.capacity → pool.holding.size ≤ policy.capacity) := by
  refine (run_induction (motive := fun pool => pool.Aligned ∧ pool.policy = policy ∧
    (0 < policy.capacity → pool.holding.size ≤ policy.capacity)) ?_ ?_).2
  · refine ⟨aligned_empty policy, rfl, fun _ => ?_⟩
    rw [size_holding]
    exact Nat.zero_le _
  · rintro operation - pool after ⟨aligned, rfl, within⟩ done
    refine ⟨aligned.perform done, ?_⟩
    cases operation with
    | insert priority sealedTx =>
      have performed := aligned.performs_insert priority sealedTx
      have inserted : pool.insert priority sealedTx = .ok after := done
      rw [inserted] at performed
      exact ⟨policy_insert done, fun bounded => performed.size_le bounded (within bounded)⟩
    | remove digest =>
      obtain ⟨slot, entry, -, -, rfl⟩ := remove_eq_ok done
      have cleared := holding_clearSlot (pool.withdraw (entry.rank slot.1 slot.2) digest) slot
      refine ⟨rfl, fun bounded => Nat.le_trans (Nat.le_of_eq (congrArg _ cleared)) ?_⟩
      exact Nat.le_trans Std.ExtHashMap.size_erase_le (within bounded)
    | settle =>
      cases done
      exact ⟨aligned.policy_settle, aligned.holding_settle ▸ within⟩
    | select =>
      cases done
      exact ⟨aligned.policy_settle, aligned.holding_settle ▸ within⟩

/-- The pool answers every operation as the map of what it holds does and then holds what the map
does. It counts and finds what the map has, and never more than its capacity. -/
structure ActsAsMap (policy : Policy T V) (pool : Pool T V) : Prop where
  performs (operation : Operation T V) :
    pool.holding.Performs policy operation ((pool.perform operation).map holding)
  unchanged (operation : Operation T V) (cause : PoolError)
    (refused : pool.perform operation = .error cause) : pool.run [operation] = pool
  size_eq : pool.size = pool.holding.size
  contains_iff (digest : Digest) : pool.contains digest = true ↔
    ∃ (slot : Slot) (priority : V) (sealedTx : SealedTx T),
      pool.holding[slot]? = some (priority, sealedTx) ∧ sealedTx.digest = digest
  get?_eq_some_iff (digest : Digest) (sealedTx : SealedTx T) : pool.get? digest = some sealedTx ↔
    ∃ (slot : Slot) (priority : V),
      pool.holding[slot]? = some (priority, sealedTx) ∧ sealedTx.digest = digest
  size_le (bounded : 0 < policy.capacity) : pool.holding.size ≤ policy.capacity

theorem Aligned.actsAsMap (aligned : pool.Aligned) (indexes : pool.Indexes pool.entryAt)
    (within : 0 < pool.policy.capacity → pool.holding.size ≤ pool.policy.capacity) :
    ActsAsMap pool.policy pool where
  performs := aligned.performs indexes
  unchanged operation cause refused := by
    simp only [Pool.run, List.foldl_cons, List.foldl_nil, refused]
    rfl
  size_eq := by rw [size_holding, aligned.size_eq]
  contains_iff := indexes.contains_iff
  get?_eq_some_iff digest _ := indexes.get?_eq_some_iff digest
  size_le := within

theorem actsAsMap_run (policy : Policy T V) (operations : List (Operation T V))
    (fixed : DigestsFixSlots (newcomers operations)) :
    ActsAsMap policy ((empty policy).run operations) := by
  have aligned := (aligned_empty policy).run operations
  obtain ⟨same, within⟩ := policy_run policy operations
  have acts := aligned.actsAsMap (indexes_run policy fixed) (same.symm ▸ within)
  rwa [same] at acts

open Ledger in
theorem actsAsMap_run_of_veto :
    let first := SealedTx.ofParts (Tx.transfer (Address.ofIndex 1) 0 0) [1]
    let rival := SealedTx.ofParts (Tx.transfer (Address.ofIndex 2) 0 0) [2]
    let extra := SealedTx.ofParts (Tx.transfer (Address.ofIndex 3) 0 0) [3]
    let replacement := SealedTx.ofParts (Tx.transfer (Address.ofIndex 1) 0 5) [4]
    let policy : Policy Tx UInt64 := { capacity := 2, mayReplace := fun old new _ _ => old < new }
    let operations : List (Operation Tx UInt64) :=
      [.insert 7 first, .insert 7 rival, .select, .insert 7 replacement, .insert 9 extra,
        .insert 9 replacement, .remove first.digest, .remove rival.digest]
    DigestsFixSlots (newcomers operations) ∧ ActsAsMap policy ((empty policy).run operations) := by
  intro first rival extra replacement policy operations
  have fixed : DigestsFixSlots (newcomers operations) := by decide +kernel
  exact ⟨fixed, actsAsMap_run policy operations fixed⟩

end Pool

end BlockBuilder
