import Mathlib.Data.List.Forall2
import BlockBuilder.Proofs.Pool.Contents
import BlockBuilder.Proofs.Pool.Origin

namespace BlockBuilder

inductive Agrees {ε α β : Type} (alike : α → β → Prop) : Except ε α → Except ε β → Prop
  | ok {first : α} {second : β} (same : alike first second) : Agrees alike (.ok first) (.ok second)
  | error (cause : ε) : Agrees alike (.error cause) (.error cause)

theorem Agrees.map {ε α β γ δ : Type} {alike : α → β → Prop} {like : γ → δ → Prop} {change : α → γ}
    {change' : β → δ} {first : Except ε α} {second : Except ε β} (agrees : Agrees alike first second)
    (changes : ∀ left right, alike left right → like (change left) (change' right)) :
    Agrees like (first.map change) (second.map change') := by
  cases agrees with
  | ok same => exact .ok (changes _ _ same)
  | error cause => exact .error cause

theorem Agrees.getD {ε α β : Type} {alike : α → β → Prop} {first : Except ε α} {second : Except ε β}
    {left : α} {right : β} (agrees : Agrees alike first second) (same : alike left right) :
    alike (first.toOption.getD left) (second.toOption.getD right) := by
  cases agrees with
  | ok done => exact done
  | error cause => exact same

theorem Holding.Performs.unique {T V : Type} [Transaction T] {policy : Policy T V} {held : Holding T V}
    {priority : V} {sealedTx : SealedTx T} {first second : Except PoolError (Holding T V)}
    (performs : held.Performs policy (.insert priority sealedTx) first)
    (performs' : held.Performs policy (.insert priority sealedTx) second) : first = second := by
  cases performs <;> cases performs' <;> simp_all <;> omega

namespace Pool

variable {T V : Type} [Ord V] [Transaction T] [DecidableEq V] {pool other after : Pool T V}
  {sealedTx : SealedTx T} {priority : V} {digest : Digest}

/-- The pools differ in their weights only. -/
structure Alike (pool other : Pool T V) : Prop where
  left : pool.Aligned
  right : other.Aligned
  policy : pool.policy = other.policy
  holding : pool.holding = other.holding
  slots : pool.slots = other.slots

theorem Aligned.alike (aligned : pool.Aligned) : pool.Alike pool := ⟨aligned, aligned, rfl, rfl, rfl⟩

variable [Std.TransOrd V] [Std.LawfulEqOrd V]

theorem Aligned.exists_insert_of_holds (aligned : pool.Aligned)
    (allows : ∀ old new holder newcomer, pool.policy.mayReplace old new holder newcomer = true)
    (holds : pool.Holds sealedTx) (priority : V) :
    ∃ after, pool.insert priority sealedTx = .ok after := by
  obtain ⟨slot, old, occupied⟩ := holds.exists_held
  obtain ⟨entry, found, -, rfl⟩ := holding_eq_some_iff.mp occupied
  have performs := aligned.performs_insert priority entry.sealedTx
  have same := performs.unique (.replaced (aligned.seated found) occupied (allows ..))
  cases inserted : pool.insert priority entry.sealedTx with
  | error cause =>
    rw [inserted] at same
    cases same
  | ok after => exact ⟨after, rfl⟩

theorem Aligned.slots_settle (aligned : pool.Aligned) : pool.settle.slots = pool.slots :=
  aligned.settle_eq slots fun _ _ _ _ _ => rfl

theorem Aligned.alike_settle (aligned : pool.Aligned) : pool.Alike pool.settle where
  left := aligned
  right := aligned.settle
  policy := aligned.policy_settle.symm
  holding := aligned.holding_settle.symm
  slots := aligned.slots_settle.symm

namespace Alike

theorem select_eq (alike : pool.Alike other) : pool.select.1 = other.select.1 :=
  alike.left.select_eq_of_holding_eq alike.right alike.holding

theorem settle (alike : pool.Alike other) : pool.settle.Alike other.settle where
  left := alike.left.settle
  right := alike.right.settle
  policy := by rw [alike.left.policy_settle, alike.right.policy_settle, alike.policy]
  holding := by rw [alike.left.holding_settle, alike.right.holding_settle, alike.holding]
  slots := by rw [alike.left.slots_settle, alike.right.slots_settle, alike.slots]

omit [DecidableEq V] [Std.TransOrd V] [Std.LawfulEqOrd V] in
theorem slots_of_insert (done : pool.insert priority sealedTx = .ok after) :
    ∃ slot, sealedTx.slot? = some slot ∧
      after.slots = (match pool.holding[slot]? with
        | none => pool.slots
        | some (_, holder) => pool.slots.erase holder.digest).insert sealedTx.digest slot := by
  obtain ⟨slot, meant, ⟨vacant, -, rfl⟩ | ⟨holder, held, rfl⟩⟩ := insert_eq_ok done
  · exact ⟨slot, meant, by rw [getElem?_holding, vacant]; rfl⟩
  · exact ⟨slot, meant, by rw [getElem?_holding, held]; rfl⟩

theorem insert (alike : pool.Alike other) (priority : V) (sealedTx : SealedTx T) :
    Agrees Alike (pool.insert priority sealedTx) (other.insert priority sealedTx) := by
  have performs := alike.left.performs_insert priority sealedTx
  have performs' := alike.right.performs_insert priority sealedTx
  rw [← alike.policy, ← alike.holding] at performs'
  have same := performs.unique performs'
  cases done : pool.insert priority sealedTx with
  | error cause =>
    cases done' : other.insert priority sealedTx with
    | error cause' =>
      rw [done, done'] at same
      cases same
      exact .error cause
    | ok after' =>
      rw [done, done'] at same
      cases same
  | ok after =>
    cases done' : other.insert priority sealedTx with
    | error cause' =>
      rw [done, done'] at same
      cases same
    | ok after' =>
      rw [done, done'] at same
      obtain ⟨slot, meant, slots⟩ := slots_of_insert done
      obtain ⟨_, meant', slots'⟩ := slots_of_insert done'
      cases meant.symm.trans meant'
      refine .ok ⟨alike.left.insert done, alike.right.insert done', ?_, Except.ok.inj same, ?_⟩
      · rw [policy_insert done, policy_insert done', alike.policy]
      · rw [slots, slots', alike.holding, alike.slots]

omit [DecidableEq V] [Std.TransOrd V] [Std.LawfulEqOrd V] [Transaction T] in
theorem remove_of_located {slot : Slot} (located : pool.slots[digest]? = some slot) :
    pool.remove digest = match pool.entryAt slot with
      | none => .error (.notFound digest)
      | some entry => .ok { pool.withdraw (entry.rank slot.1 slot.2) digest with
          queues := clearSlot pool.queues slot.1 slot.2 } := by
  simp only [Pool.remove, located]
  rfl

theorem remove (alike : pool.Alike other) (digest : Digest) :
    Agrees Alike (pool.remove digest) (other.remove digest) := by
  cases located : pool.slots[digest]? with
  | none =>
    have located' : other.slots[digest]? = none := alike.slots ▸ located
    simp only [Pool.remove, located, located']
    exact .error _
  | some slot =>
    have located' : other.slots[digest]? = some slot := alike.slots ▸ located
    have held : pool.holding[slot]? = other.holding[slot]? := by rw [alike.holding]
    rw [getElem?_holding, getElem?_holding] at held
    cases found : pool.entryAt slot with
    | none =>
      rw [found, Option.map_none, eq_comm, Option.map_eq_none_iff] at held
      simp only [remove_of_located located, remove_of_located located', found, held]
      exact .error _
    | some entry =>
      rw [found, Option.map_some, eq_comm, Option.map_eq_some_iff] at held
      obtain ⟨entry', found', -⟩ := held
      have done := remove_of_located located
      have done' := remove_of_located located'
      simp only [found, found'] at done done'
      obtain ⟨_, at_slot, holding⟩ := holding_remove done
      obtain ⟨_, at_slot', holding'⟩ := holding_remove done'
      cases located.symm.trans at_slot
      cases located'.symm.trans at_slot'
      rw [done, done']
      refine .ok ⟨alike.left.remove done, alike.right.remove done', alike.policy, ?_, ?_⟩
      · rw [holding, holding', alike.holding]
      · exact congrArg (·.erase digest) alike.slots

theorem perform (alike : pool.Alike other) (operation : Operation T V) :
    Agrees Alike (pool.perform operation) (other.perform operation) := by
  cases operation with
  | insert priority sealedTx => exact alike.insert priority sealedTx
  | remove digest => exact alike.remove digest
  | settle => exact .ok alike.settle
  | select => exact .ok alike.settle

theorem run (alike : pool.Alike other) (operations : List (Operation T V)) :
    (pool.run operations).Alike (other.run operations) := by
  induction operations generalizing pool other with
  | nil => exact alike
  | cons operation rest ih => exact ih ((alike.perform operation).getD alike)

end Alike

end Pool

end BlockBuilder
