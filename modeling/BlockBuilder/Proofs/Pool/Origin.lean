import BlockBuilder.Proofs.Pool.SlotMap

namespace BlockBuilder

namespace Pool

variable {T V : Type} [Ord V] [Transaction T] {pool after : Pool T V} {slot : Slot}
  {sealedTx : SealedTx T} {priority : V} {digest : Digest}

theorem holding_insert (done : pool.insert priority sealedTx = .ok after) :
    ∃ slot, sealedTx.slot? = some slot ∧
      after.holding = pool.holding.insert slot (priority, sealedTx) := by
  obtain ⟨slot, meant, ⟨-, -, rfl⟩ | ⟨holder, -, rfl⟩⟩ := insert_eq_ok done
  · exact ⟨slot, meant, pool.holding_place priority slot sealedTx⟩
  · exact ⟨slot, meant, (pool.withdraw (holder.rank slot.1 slot.2) holder.sealedTx.digest).holding_place
      priority slot sealedTx⟩

omit [Transaction T] in
theorem holding_remove (done : pool.remove digest = .ok after) :
    ∃ slot, pool.slots[digest]? = some slot ∧ after.holding = pool.holding.erase slot := by
  obtain ⟨slot, entry, located, -, rfl⟩ := remove_eq_ok done
  exact ⟨slot, located, (pool.withdraw (entry.rank slot.1 slot.2) digest).holding_clearSlot slot⟩

variable [DecidableEq V] [Std.TransOrd V] [Std.LawfulEqOrd V]

theorem Aligned.held_of_perform {operation : Operation T V} (aligned : pool.Aligned)
    (done : pool.perform operation = .ok after)
    (held : after.holding[slot]? = some (priority, sealedTx)) :
    pool.holding[slot]? = some (priority, sealedTx) ∨ operation = .insert priority sealedTx := by
  cases operation with
  | insert under inserted =>
    obtain ⟨own, -, same⟩ := holding_insert done
    rw [same, Std.ExtHashMap.getElem?_insert] at held
    split at held
    · cases held
      exact .inr rfl
    · exact .inl held
  | remove digest =>
    obtain ⟨own, -, same⟩ := holding_remove done
    rw [same, Std.ExtHashMap.getElem?_erase] at held
    split at held
    · cases held
    · exact .inl held
  | settle =>
    cases done
    exact .inl (aligned.holding_settle ▸ held)
  | select =>
    cases done
    exact .inl (aligned.holding_settle ▸ held)

theorem inserted_of_run {policy : Policy T V} {operations : List (Operation T V)}
    (held : ((empty policy).run operations).holding[slot]? = some (priority, sealedTx)) :
    .insert priority sealedTx ∈ operations := by
  refine (run_induction (motive := fun pool => pool.Aligned ∧ ∀ slot priority sealedTx,
    pool.holding[slot]? = some (priority, sealedTx) → .insert priority sealedTx ∈ operations)
    ⟨aligned_empty policy, ?_⟩ ?_).2 slot priority sealedTx held
  · intro slot priority sealedTx held
    rw [getElem?_holding, entryAt_empty] at held
    cases held
  · rintro operation mem pool after ⟨aligned, inserted⟩ done
    refine ⟨aligned.perform done, fun slot priority sealedTx held => ?_⟩
    rcases aligned.held_of_perform done held with before | rfl
    · exact inserted slot priority sealedTx before
    · exact mem

omit [Transaction T] [DecidableEq V] [Std.TransOrd V] [Std.LawfulEqOrd V] in
theorem exists_slot_of_contains (known : pool.contains digest = true) :
    ∃ slot, pool.slots[digest]? = some slot :=
  Option.isSome_iff_exists.mp (Std.HashMap.isSome_getElem?_eq_contains.trans known)

def Located (pool : Pool T V) (view : Slot → Option (Entry T V)) : Prop :=
  ∀ (digest : Digest) (slot : Slot), pool.slots[digest]? = some slot →
    ∃ entry, view slot = some entry ∧ entry.sealedTx.digest = digest

section Located

variable {view : Slot → Option (Entry T V)} {entry : Entry T V} {rank : Rank V}

omit [Transaction T] [DecidableEq V] [Std.TransOrd V] [Std.LawfulEqOrd V]

theorem Located.withdraw (located : pool.Located view) (found : view slot = some entry)
    (rank : Rank V) :
    (pool.withdraw rank entry.sealedTx.digest).Located (Function.update view slot none) := by
  intro digest other known
  simp only [Pool.withdraw, Std.HashMap.getElem?_erase, beq_iff_eq] at known
  split at known
  · cases known
  · rename_i differ
    obtain ⟨rival, met, same⟩ := located digest other known
    have elsewhere : other ≠ slot := by
      rintro rfl
      cases found.symm.trans met
      exact differ same
    exact ⟨rival, by rw [Function.update_of_ne elsewhere, met], same⟩

theorem Located.place (located : pool.Located view) (vacant : view slot = none) (priority : V)
    (sealedTx : SealedTx T) :
    (pool.place priority slot.1 slot.2 sealedTx).Located
      (Function.update view slot (some ⟨priority, none, sealedTx⟩)) := by
  intro digest other known
  simp only [Pool.place, Std.HashMap.getElem?_insert, beq_iff_eq] at known
  split at known
  · rename_i own
    cases known
    exact ⟨_, Function.update_self .., own⟩
  · obtain ⟨rival, met, same⟩ := located digest other known
    have elsewhere : other ≠ slot := by
      rintro rfl
      rw [vacant] at met
      cases met
    exact ⟨rival, by rw [Function.update_of_ne elsewhere, met], same⟩

theorem Located.reweigh (located : pool.Located view) (found : view slot = some entry) (rank : Rank V)
    (weight : V) :
    (pool.reweigh rank weight).Located
      (Function.update view slot (some { entry with weight := some weight })) := by
  intro digest other known
  obtain ⟨rival, met, same⟩ := located digest other known
  rw [Function.update_apply]
  split
  · rename_i here
    cases (here ▸ met).symm.trans found
    exact ⟨_, rfl, same⟩
  · exact ⟨rival, met, same⟩

theorem Located.remove (located : pool.Located pool.entryAt) (done : pool.remove digest = .ok after) :
    after.Located after.entryAt := by
  obtain ⟨slot, entry, known, found, rfl⟩ := remove_eq_ok done
  obtain ⟨_, there, rfl⟩ := located digest slot known
  cases found.symm.trans there
  have withdrawn := located.withdraw found (entry.rank slot.1 slot.2)
  rw [← entryAt_clearSlot] at withdrawn
  exact withdrawn

end Located

omit [DecidableEq V] [Std.TransOrd V] [Std.LawfulEqOrd V] in
theorem Located.insert (located : pool.Located pool.entryAt)
    (done : pool.insert priority sealedTx = .ok after) : after.Located after.entryAt := by
  obtain ⟨slot, -, ⟨vacant, -, rfl⟩ | ⟨holder, held, rfl⟩⟩ := insert_eq_ok done
  · rw [entryAt_place]
    exact located.place vacant priority sealedTx
  · have placed := (located.withdraw held (holder.rank slot.1 slot.2)).place (Function.update_self ..)
      priority sealedTx
    rw [Function.update_idem] at placed
    rw [entryAt_place]
    exact placed

theorem Located.settle (located : pool.Located pool.entryAt) (aligned : pool.Aligned) :
    pool.settle.Located pool.settle.entryAt := by
  refine (settle_induction (motive := fun _ pool => pool.Located pool.entryAt) aligned located ?_).2
  intro pool rank weight rest aligned ranked located
  obtain ⟨entry, found, -⟩ := aligned.exists_entryAt ranked
  rw [entryAt_reweigh rank weight found]
  exact located.reweigh found rank weight

theorem located_run (policy : Policy T V) (operations : List (Operation T V)) :
    let pool := (empty policy).run operations
    pool.Located pool.entryAt := by
  refine (run_induction (motive := fun pool => pool.Aligned ∧ pool.Located pool.entryAt)
    ⟨aligned_empty policy, ?_⟩ ?_).2
  · intro digest slot known
    simp [empty] at known
  · rintro operation - pool after ⟨aligned, located⟩ done
    refine ⟨aligned.perform done, ?_⟩
    cases operation with
    | insert priority sealedTx => exact located.insert done
    | remove digest => exact located.remove done
    | settle =>
      cases done
      exact located.settle aligned
    | select =>
      cases done
      exact located.settle aligned

structure Stocked (allowed : V → SealedTx T → Prop) (pool : Pool T V) : Prop where
  aligned : pool.Aligned
  located : pool.Located pool.entryAt
  held {slot : Slot} {priority : V} {sealedTx : SealedTx T}
    (held : pool.holding[slot]? = some (priority, sealedTx)) : allowed priority sealedTx

theorem stocked_run {allowed : V → SealedTx T → Prop} (policy : Policy T V)
    {operations : List (Operation T V)}
    (passes : ∀ priority sealedTx, .insert priority sealedTx ∈ operations →
      allowed priority sealedTx) : ((empty policy).run operations).Stocked allowed where
  aligned := (aligned_empty policy).run operations
  located := located_run policy operations
  held held := passes _ _ (inserted_of_run held)

omit [Std.TransOrd V] [Std.LawfulEqOrd V] in
theorem Stocked.of_entry {allowed : V → SealedTx T → Prop} (stocked : pool.Stocked allowed)
    {sender : Address} {sequence : UInt64} {entry : Entry T V}
    (found : pool.entry? sender sequence = some entry) : allowed entry.priority entry.sealedTx := by
  have filled : pool.entryAt (sender, sequence) = some entry := found
  exact stocked.held (holding_eq_some_iff.mpr ⟨entry, filled, rfl, rfl⟩)

omit [Transaction T] [DecidableEq V] [Std.TransOrd V] [Std.LawfulEqOrd V] in
theorem Holds.exists_held (holds : pool.Holds sealedTx) :
    ∃ (slot : Slot) (priority : V), pool.holding[slot]? = some (priority, sealedTx) := by
  obtain ⟨sender, sequence, entry, found, rfl⟩ := holds
  exact ⟨(sender, sequence), entry.priority, holding_eq_some_iff.mpr ⟨entry, found, rfl, rfl⟩⟩

omit [Std.TransOrd V] [Std.LawfulEqOrd V] in
theorem Stocked.of_holds {allowed : V → SealedTx T → Prop} (stocked : pool.Stocked allowed)
    (holds : pool.Holds sealedTx) : ∃ priority, allowed priority sealedTx := by
  obtain ⟨slot, priority, held⟩ := holds.exists_held
  exact ⟨priority, stocked.held held⟩

end Pool

end BlockBuilder
