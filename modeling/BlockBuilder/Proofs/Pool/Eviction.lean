import BlockBuilder.Proofs.Pool.Origin

namespace BlockBuilder

namespace Pool

variable {T V : Type} [Ord V] {pool after : Pool T V} {slot : Slot} {priority : V}
  {sealedTx other : SealedTx T} {digest : Digest}

theorem Indexes.eq_of_holds (indexes : pool.Indexes pool.entryAt) (holds : pool.Holds sealedTx)
    (holds' : pool.Holds other) (same : sealedTx.digest = other.digest) : sealedTx = other := by
  obtain ⟨sender, sequence, entry, found, rfl⟩ := holds
  obtain ⟨sender', sequence', entry', found', rfl⟩ := holds'
  have place : ((sender, sequence) : Slot) = (sender', sequence') :=
    indexes.eq_of_digest_eq found' found same
  cases place
  cases found.symm.trans found'
  rfl

theorem Indexes.held_remove_iff (indexes : pool.Indexes pool.entryAt)
    (done : pool.remove digest = .ok after) :
    after.holding[slot]? = some (priority, sealedTx) ↔
      pool.holding[slot]? = some (priority, sealedTx) ∧ sealedTx.digest ≠ digest := by
  obtain ⟨own, located, holding⟩ := holding_remove done
  obtain ⟨entry, found, same⟩ := (indexes digest own).mp located
  rw [holding, Std.ExtHashMap.getElem?_erase]
  constructor
  · intro held
    split at held
    · cases held
    · rename_i elsewhere
      refine ⟨held, fun alike => ?_⟩
      obtain ⟨rival, met, -, rfl⟩ := holding_eq_some_iff.mp held
      exact elsewhere (beq_iff_eq.mpr (indexes.eq_of_digest_eq found met (alike.trans same.symm)).symm)
  · rintro ⟨held, differ⟩
    rwa [if_neg]
    intro here
    cases beq_iff_eq.mp here
    obtain ⟨rival, met, -, rfl⟩ := holding_eq_some_iff.mp held
    cases found.symm.trans met
    exact differ same

theorem Indexes.digest_ne_of_refused (indexes : pool.Indexes pool.entryAt) {cause : PoolError}
    (refused : pool.remove digest = .error cause)
    (held : pool.holding[slot]? = some (priority, sealedTx)) : sealedTx.digest ≠ digest := by
  rintro rfl
  obtain ⟨entry, found, -, rfl⟩ := holding_eq_some_iff.mp held
  obtain ⟨-, after, done⟩ := indexes.exists_remove ((indexes _ slot).mpr ⟨entry, found, rfl⟩)
  rw [refused] at done
  cases done

theorem Indexes.held_removeAll_iff (indexes : pool.Indexes pool.entryAt) (digests : List Digest) :
    (pool.removeAll digests).holding[slot]? = some (priority, sealedTx) ↔
      pool.holding[slot]? = some (priority, sealedTx) ∧ sealedTx.digest ∉ digests := by
  induction digests generalizing pool with
  | nil => simp [removeAll]
  | cons digest rest ih =>
    have step : pool.removeAll (digest :: rest) =
        ((pool.remove digest).toOption.getD pool).removeAll rest := rfl
    rw [step, List.mem_cons, not_or]
    cases done : pool.remove digest with
    | error cause =>
      rw [← and_assoc, and_iff_left_of_imp (indexes.digest_ne_of_refused done)]
      exact ih indexes
    | ok after =>
      rw [← and_assoc, ← indexes.held_remove_iff done]
      exact ih (indexes.remove done)

variable [Transaction T] [DecidableEq V] [Std.TransOrd V] [Std.LawfulEqOrd V]

structure Evictable (pool : Pool T V) : Prop where
  aligned : pool.Aligned
  indexes : pool.Indexes pool.entryAt

theorem Evictable.held_evict_iff (evictable : pool.Evictable) {digests : List Digest}
    {marked : SealedTx T → Prop} (marks : ∀ digest, digest ∈ digests ↔
      ∃ sealedTx, pool.Holds sealedTx ∧ marked sealedTx ∧ sealedTx.digest = digest) :
    (pool.settle.removeAll digests).holding[slot]? = some (priority, sealedTx) ↔
      pool.holding[slot]? = some (priority, sealedTx) ∧ ¬marked sealedTx := by
  rw [(evictable.indexes.settle evictable.aligned).held_removeAll_iff, evictable.aligned.holding_settle]
  refine and_congr_right fun held => not_congr ?_
  obtain ⟨entry, found, -, rfl⟩ := holding_eq_some_iff.mp held
  constructor
  · intro listed
    obtain ⟨other, holds, meant, same⟩ := (marks _).mp listed
    rwa [evictable.indexes.eq_of_holds (holds_of_entryAt found) holds same.symm]
  · exact fun meant => (marks _).mpr ⟨entry.sealedTx, holds_of_entryAt found, meant, rfl⟩

end Pool

end BlockBuilder
