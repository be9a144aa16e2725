import BlockBuilder.Proofs.Pool.Bookkeeping

namespace BlockBuilder

namespace Pool

variable {T V : Type} [Ord V] {pool after : Pool T V} {slot : Slot}
  {entry : Entry T V} {sealedTx : SealedTx T} {rank : Rank V}

theorem insert_eq_ok [Transaction T] {priority : V} (done : pool.insert priority sealedTx = .ok after) :
    ∃ slot, sealedTx.slot? = some slot ∧
      ((pool.entryAt slot = none ∧ pool.isFull = false ∧
          after = pool.place priority slot.1 slot.2 sealedTx) ∨
        ∃ holder, pool.entryAt slot = some holder ∧
          after = (pool.withdraw (holder.rank slot.1 slot.2) holder.sealedTx.digest).place
            priority slot.1 slot.2 sealedTx) := by
  unfold insert at done
  split at done
  · cases done
  · rename_i sender signed
    refine ⟨(sender, Transaction.sequence sealedTx.tx), by simp [SealedTx.slot?, signed], ?_⟩
    dsimp only at done
    split at done
    · rename_i holder held
      split at done
      · cases done
        exact .inr ⟨holder, held, rfl⟩
      · cases done
    · rename_i vacant
      split at done
      · cases done
      · rename_i room
        cases done
        exact .inl ⟨vacant, by simpa using room, rfl⟩

theorem remove_eq_ok {digest : Digest} (done : pool.remove digest = .ok after) :
    ∃ slot entry, pool.slots[digest]? = some slot ∧ pool.entryAt slot = some entry ∧
      after = { pool.withdraw (entry.rank slot.1 slot.2) digest with
        queues := clearSlot pool.queues slot.1 slot.2 } := by
  unfold remove at done
  split at done
  · cases done
  · rename_i sender sequence located
    split at done
    · cases done
    · rename_i entry found
      cases done
      exact ⟨(sender, sequence), entry, located, found, rfl⟩

theorem nodup_ranks [Std.TransOrd V] (pool : Pool T V) : pool.ranks.toList.Nodup := by
  refine pool.ranks.distinct_toList.imp ?_
  rintro first second differ rfl
  exact differ Std.ReflOrd.compare_self

variable [DecidableEq V]

theorem staleWeight?_eq_some {change : Rank V × V} (stale : pool.staleWeight? rank = some change) :
    change.1 = rank ∧ pool.weight? rank.sender rank.sequence = some change.2 := by
  unfold staleWeight? at stale
  split at stale
  · obtain ⟨weight, due, changed⟩ := Option.bind_eq_some_iff.mp stale
    split at changed
    · cases changed
    · cases changed
      exact ⟨rfl, due⟩
  · cases stale

theorem nodup_stale [Std.TransOrd V] (pool : Pool T V) :
    ((pool.ranks.toList.filterMap pool.staleWeight?).map Prod.fst).Nodup := by
  have sublist (ranks : List (Rank V)) :
      ((ranks.filterMap pool.staleWeight?).map Prod.fst).Sublist ranks := by
    induction ranks with
    | nil => exact .slnil
    | cons rank rest ih =>
      cases stale : pool.staleWeight? rank with
      | none => simpa [stale] using ih.cons rank
      | some change =>
        obtain ⟨here, -⟩ := staleWeight?_eq_some stale
        simpa [stale, here] using ih.cons_cons rank
  exact pool.nodup_ranks.sublist (sublist _)

inductive Operation (T V : Type) where
  | insert (priority : V) (sealedTx : SealedTx T)
  | remove (digest : Digest)
  | settle
  | select

def perform [Transaction T] (pool : Pool T V) : Operation T V → Except PoolError (Pool T V)
  | .insert priority sealedTx => pool.insert priority sealedTx
  | .remove digest => pool.remove digest
  | .settle => .ok pool.settle
  | .select => .ok pool.select.2

def run [Transaction T] (pool : Pool T V) (operations : List (Operation T V)) : Pool T V :=
  operations.foldl (fun pool operation => (pool.perform operation).toOption.getD pool) pool

theorem run_append [Transaction T] (pool : Pool T V) (first second : List (Operation T V)) :
    pool.run (first ++ second) = (pool.run first).run second :=
  List.foldl_append

theorem removeAll_eq_run [Transaction T] (pool : Pool T V) (digests : List Digest) :
    pool.removeAll digests = pool.run (digests.map .remove) := by
  rw [run, List.foldl_map]
  rfl

theorem run_induction [Transaction T] {motive : Pool T V → Prop} {operations : List (Operation T V)}
    (start : motive pool)
    (step : ∀ operation ∈ operations, ∀ pool after, motive pool →
      pool.perform operation = .ok after → motive after) :
    motive (pool.run operations) := by
  unfold run
  induction operations generalizing pool with
  | nil => exact start
  | cons operation rest ih =>
    refine ih ?_ fun other later => step other (List.mem_cons_of_mem _ later)
    change motive ((pool.perform operation).toOption.getD pool)
    cases done : pool.perform operation with
    | error cause => exact start
    | ok after => exact step operation List.mem_cons_self pool after start done

/-- The ranks and counts are those of the queues, none of which is empty, and every transaction is
in the slot that it is meant for. -/
structure Aligned [Transaction T] (pool : Pool T V) : Prop where
  tracks : pool.Tracks pool.entryAt
  occupied {sender : Address} {queue : Queue T V} (found : pool.queues[sender]? = some queue) :
    queue.isEmpty = false
  seated {slot : Slot} {entry : Entry T V} (found : pool.entryAt slot = some entry) :
    entry.sealedTx.slot? = some slot

variable [Transaction T]

theorem Aligned.exists_entryAt (aligned : pool.Aligned) (ranked : rank ∈ pool.ranks) :
    ∃ entry, pool.entryAt rank.slot = some entry ∧ entry.rank rank.sender rank.sequence = rank :=
  (aligned.tracks.ranked rank).mp ranked

variable [Std.TransOrd V]

theorem aligned_empty (policy : Policy T V) : (empty policy).Aligned where
  tracks := by
    have nothing : (empty policy).entryAt = fun _ => none := funext fun _ => entryAt_empty policy
    rw [nothing]
    exact tracks_empty policy
  occupied found := by simp [empty] at found
  seated found := by simp [entryAt_empty] at found

variable [Std.LawfulEqOrd V]

theorem Aligned.place (aligned : pool.Aligned) {cleared : Pool T V}
    (tracks : cleared.Tracks (Function.update pool.entryAt slot none))
    (same : cleared.queues = pool.queues) (priority : V) (meant : sealedTx.slot? = some slot) :
    (cleared.place priority slot.1 slot.2 sealedTx).Aligned := by
  have entries : cleared.entryAt = pool.entryAt := by
    funext other
    simp only [entryAt, entry?, same]
  have placed := entryAt_place cleared priority slot sealedTx
  rw [entries] at placed
  constructor
  · have tracked := tracks.place (Function.update_self ..) priority sealedTx
    rwa [Function.update_idem, ← placed] at tracked
  · intro sender queue found
    simp only [Pool.place, Std.TreeMap.getElem?_insert, same] at found
    split at found
    · cases found
      exact Std.TreeMap.isEmpty_insert
    · exact aligned.occupied found
  · intro other entry found
    rw [placed, Function.update_apply] at found
    split at found
    · rename_i here
      cases found
      exact here ▸ meant
    · exact aligned.seated found

theorem Aligned.insert {priority : V} (aligned : pool.Aligned)
    (done : pool.insert priority sealedTx = .ok after) : after.Aligned := by
  obtain ⟨slot, meant, ⟨vacant, -, rfl⟩ | ⟨holder, held, rfl⟩⟩ := insert_eq_ok done
  · refine aligned.place ?_ rfl priority meant
    rw [← vacant, Function.update_eq_self]
    exact aligned.tracks
  · exact aligned.place (aligned.tracks.withdraw held _) rfl priority meant

theorem Aligned.remove {digest : Digest} (aligned : pool.Aligned)
    (done : pool.remove digest = .ok after) : after.Aligned := by
  obtain ⟨slot, entry, -, found, rfl⟩ := remove_eq_ok done
  have cleared := entryAt_clearSlot pool slot
  constructor
  · have tracked := aligned.tracks.withdraw found digest
    exact cleared ▸ ⟨tracked.ranked, tracked.counted, tracked.positive⟩
  · intro sender queue met
    simp only [clearSlot] at met
    split at met
    · exact aligned.occupied met
    · split at met
      · rw [Std.TreeMap.getElem?_erase] at met
        split at met
        · cases met
        · exact aligned.occupied met
      · rename_i left
        rw [Std.TreeMap.getElem?_insert] at met
        split at met
        · cases met
          exact Bool.eq_false_iff.mpr left
        · exact aligned.occupied met
  · intro other entry met
    have met : Function.update pool.entryAt slot none other = some entry := cleared ▸ met
    rw [Function.update_apply] at met
    split at met
    · cases met
    · exact aligned.seated met

theorem Aligned.reweigh (aligned : pool.Aligned) (ranked : rank ∈ pool.ranks) (weight : V) :
    (pool.reweigh rank weight).Aligned := by
  obtain ⟨entry, found, same⟩ := aligned.exists_entryAt ranked
  have reweighed := entryAt_reweigh _ weight found
  constructor
  · have tracked := aligned.tracks.reweigh found weight
    rw [Rank.slot_fst, Rank.slot_snd, same] at tracked
    exact reweighed ▸ tracked
  · intro sender queue met
    simp only [Pool.reweigh] at met
    split at met
    · exact aligned.occupied met
    · rename_i whole known
      rw [Std.TreeMap.getElem?_insert] at met
      split at met
      · cases met
        rw [Std.TreeMap.isEmpty_modify]
        exact aligned.occupied known
      · exact aligned.occupied met
  · intro other changed met
    rw [reweighed, Function.update_apply] at met
    split at met
    · rename_i here
      cases met
      rw [here]
      have seated := aligned.seated found
      exact seated
    · exact aligned.seated met

theorem settle_induction {motive : List (Rank V × V) → Pool T V → Prop} (aligned : pool.Aligned)
    (start : motive (pool.ranks.toList.filterMap pool.staleWeight?) pool)
    (step : ∀ pool rank weight rest, pool.Aligned → rank ∈ pool.ranks →
      motive ((rank, weight) :: rest) pool → motive rest (pool.reweigh rank weight)) :
    pool.settle.Aligned ∧ motive [] pool.settle := by
  have listed : ∀ change ∈ pool.ranks.toList.filterMap pool.staleWeight?, change.1 ∈ pool.ranks := by
    intro change mem
    obtain ⟨rank, ranked, stale⟩ := List.mem_filterMap.mp mem
    obtain ⟨rfl, -⟩ := staleWeight?_eq_some stale
    exact Std.TreeSet.mem_toList.mp ranked
  have distinct := pool.nodup_stale
  unfold settle
  generalize pool.ranks.toList.filterMap pool.staleWeight? = changes at *
  induction changes generalizing pool with
  | nil => exact ⟨aligned, start⟩
  | cons change rest ih =>
    obtain ⟨rank, weight⟩ := change
    obtain ⟨here, others⟩ := List.forall_mem_cons.mp listed
    obtain ⟨new, distinct⟩ := List.nodup_cons.mp distinct
    refine ih (aligned.reweigh here weight) (step pool rank weight rest aligned here start) ?_ distinct
    -- a rank that is still to be changed is another one than the rank that is changed now
    intro later mem
    have differ : rank ≠ later.1 := by
      rintro rfl
      exact new (List.mem_map.mpr ⟨later, mem, rfl⟩)
    simp [Pool.reweigh, others later mem, differ]

theorem Aligned.settle_eq {α : Type} (aligned : pool.Aligned) (view : Pool T V → α)
    (kept : ∀ pool rank entry weight, pool.entryAt rank.slot = some entry →
      view (pool.reweigh rank weight) = view pool) :
    view pool.settle = view pool := by
  refine (settle_induction (motive := fun _ settled => view settled = view pool) aligned rfl ?_).2
  intro settled rank weight rest aligned ranked same
  obtain ⟨entry, found, -⟩ := aligned.exists_entryAt ranked
  rw [kept settled rank entry weight found, same]

theorem Aligned.settle (aligned : pool.Aligned) : pool.settle.Aligned :=
  (settle_induction (motive := fun _ _ => True) aligned trivial fun _ _ _ _ _ _ _ => trivial).1

theorem Aligned.perform {operation : Operation T V} (aligned : pool.Aligned)
    (done : pool.perform operation = .ok after) : after.Aligned := by
  cases operation with
  | insert priority sealedTx => exact aligned.insert done
  | remove digest => exact aligned.remove done
  | settle =>
    cases done
    exact aligned.settle
  | select =>
    cases done
    exact aligned.settle

theorem Aligned.run (aligned : pool.Aligned) (operations : List (Operation T V)) :
    (pool.run operations).Aligned :=
  run_induction aligned fun _ _ _ _ aligned done => aligned.perform done

end Pool

end BlockBuilder
