import BlockBuilder.Pool.Selection

namespace BlockBuilder.Pool

variable {T V : Type} [Ord V] {pool after : Pool T V} {sender : Address} {sequence : UInt64}
  {sealedTx : SealedTx T}

def Holds (pool : Pool T V) (sealedTx : SealedTx T) : Prop :=
  ∃ sender sequence entry, pool.entry? sender sequence = some entry ∧ entry.sealedTx = sealedTx

theorem entry?_place (pool : Pool T V) (priority : V) (owner : Address) (place : UInt64)
    (sealedTx : SealedTx T) :
    Pool.entry? (pool.place priority owner place sealedTx) sender sequence =
      if owner = sender ∧ place = sequence then some ⟨priority, none, sealedTx⟩
      else pool.entry? sender sequence := by
  simp only [Pool.place, entry?, Std.TreeMap.getElem?_insert, Std.LawfulEqCmp.compare_eq_iff_eq]
  by_cases same : owner = sender
  · subst same
    simp only [if_true, Option.bind_some, Std.TreeMap.getElem?_insert,
      Std.LawfulEqCmp.compare_eq_iff_eq, true_and, Std.TreeMap.getD_eq_getD_getElem?]
    split
    · rfl
    · cases pool.queues[owner]? <;> simp
  · simp [same]

theorem entry?_clearSlot (pool : Pool T V) (owner : Address) (place : UInt64) :
    Pool.entry? { pool with queues := clearSlot pool.queues owner place } sender sequence =
      if owner = sender ∧ place = sequence then none else pool.entry? sender sequence := by
  simp only [clearSlot, entry?]
  cases found : pool.queues[owner]? with
  | none =>
    by_cases same : owner = sender
    · subst same
      simp [found]
    · simp [same]
  | some queue =>
    by_cases same : owner = sender
    · subst same
      by_cases last : (queue.erase place).isEmpty
      · have gone : (queue.erase place)[sequence]? = none := by
          simp [Std.TreeMap.isEmpty_iff_forall_not_mem.mp last]
        simp only [Std.TreeMap.getElem?_erase, Std.LawfulEqCmp.compare_eq_iff_eq] at gone
        simp [last, found, gone]
      · simp [last, found, Std.TreeMap.getElem?_erase]
    · by_cases last : (queue.erase place).isEmpty <;>
        simp [last, same, Std.TreeMap.getElem?_erase, Std.TreeMap.getElem?_insert]

theorem entry?_reweigh (pool : Pool T V) (rank : Rank V) (weight : V) :
    Pool.entry? (pool.reweigh rank weight) sender sequence =
      (fun entry => if rank.sender = sender ∧ rank.sequence = sequence
        then { entry with weight := some weight } else entry) <$> pool.entry? sender sequence := by
  simp only [reweigh, entry?, Option.map_eq_map]
  cases found : pool.queues[rank.sender]? with
  | none =>
    by_cases same : rank.sender = sender
    · subst same
      simp [found]
    · simp [same]
  | some queue =>
    by_cases same : rank.sender = sender
    · subst same
      simp only [found, Std.TreeMap.getElem?_insert_self, Option.bind_some,
        Std.TreeMap.getElem?_modify, Std.LawfulEqCmp.compare_eq_iff_eq, true_and]
      by_cases here : rank.sequence = sequence <;> simp [here]
    · simp [same, Std.TreeMap.getElem?_insert]

theorem holds_place_imp {priority : V} {placed : SealedTx T}
    (holds : (pool.place priority sender sequence placed).Holds sealedTx) :
    pool.Holds sealedTx ∨ sealedTx = placed := by
  obtain ⟨owner, place, entry, found, rfl⟩ := holds
  rw [entry?_place] at found
  split at found
  · cases found
    exact .inr rfl
  · exact .inl ⟨owner, place, entry, found, rfl⟩

theorem Holds.of_insert [Transaction T] {priority : V} {inserted : SealedTx T}
    (done : pool.insert priority inserted = .ok after) (holds : after.Holds sealedTx) :
    pool.Holds sealedTx ∨ sealedTx = inserted := by
  unfold insert at done
  split at done
  · cases done
  · dsimp only at done
    split at done
    · split at done
      · cases done
        exact holds_place_imp holds
      · cases done
    · split at done
      · cases done
      · cases done
        exact holds_place_imp holds

theorem Holds.of_remove {digest : Digest} (done : pool.remove digest = .ok after)
    (holds : after.Holds sealedTx) : pool.Holds sealedTx := by
  unfold remove at done
  split at done
  · cases done
  · rename_i owner place _
    split at done
    · cases done
    · rename_i entry _
      cases done
      obtain ⟨sender, sequence, found, slot, rfl⟩ := holds
      rw [entry?_clearSlot] at slot
      split at slot
      · cases slot
      · exact ⟨sender, sequence, found, slot, rfl⟩

@[simp] theorem holds_reweigh_iff {rank : Rank V} {weight : V} :
    (pool.reweigh rank weight).Holds sealedTx ↔ pool.Holds sealedTx := by
  simp only [Holds, entry?_reweigh, Option.map_eq_map, Option.map_eq_some_iff]
  constructor
  · rintro ⟨sender, sequence, _, ⟨entry, found, rfl⟩, rfl⟩
    refine ⟨sender, sequence, entry, found, ?_⟩
    split <;> rfl
  · rintro ⟨sender, sequence, entry, found, rfl⟩
    refine ⟨sender, sequence, _, ⟨entry, found, rfl⟩, ?_⟩
    split <;> rfl

@[simp] theorem holds_settle_iff [DecidableEq V] : pool.settle.Holds sealedTx ↔ pool.Holds sealedTx := by
  unfold settle
  generalize pool.ranks.toList.filterMap pool.staleWeight? = stale
  induction stale generalizing pool with
  | nil => rfl
  | cons change rest ih =>
    rw [List.foldl_cons, ih]
    exact holds_reweigh_iff

theorem mem_walk {ranks : List (Rank V)} {remaining : Remaining T V}
    (mem : sealedTx ∈ walk ranks remaining) :
    ∃ (sender : Address) (queue : List (Entry T V)), remaining[sender]? = some queue ∧
      sealedTx ∈ queue.map Entry.sealedTx := by
  induction ranks generalizing remaining with
  | nil => cases mem
  | cons rank rest ih =>
    -- the front of the sender's queue is taken now, the rest of it is left for later ranks
    have front {queue : List (Entry T V)}
        (sublist : queue.Sublist (remaining.getD rank.sender []))
        (mem : sealedTx ∈ queue.map Entry.sealedTx) :
        ∃ (sender : Address) (queue : List (Entry T V)), remaining[sender]? = some queue ∧
          sealedTx ∈ queue.map Entry.sealedTx := by
      rw [Std.TreeMap.getD_eq_getD_getElem?] at sublist
      cases found : remaining[rank.sender]? with
      | none =>
        rw [found, Option.getD_none, List.sublist_nil] at sublist
        simp [sublist] at mem
      | some whole =>
        rw [found, Option.getD_some] at sublist
        exact ⟨rank.sender, whole, found, (sublist.map Entry.sealedTx).subset mem⟩
    rw [walk, List.mem_append] at mem
    rcases mem with taken | later
    · exact front (List.takeWhile_sublist _) taken
    · obtain ⟨sender, queue, found, mem⟩ := ih later
      simp only [Std.TreeMap.getElem?_insert, Std.LawfulEqCmp.compare_eq_iff_eq] at found
      split at found
      · cases found
        exact front (List.dropWhile_sublist _) mem
      · exact ⟨sender, queue, found, mem⟩

theorem Holds.of_mem_traverse (mem : sealedTx ∈ pool.traverse) : pool.Holds sealedTx := by
  obtain ⟨sender, entries, found, mem⟩ := mem_walk mem
  rw [remaining, Std.TreeMap.getElem?_map, Option.map_eq_some_iff] at found
  obtain ⟨queue, found, rfl⟩ := found
  obtain ⟨entry, listed, rfl⟩ := List.mem_map.mp mem
  obtain ⟨⟨sequence, _⟩, slot, rfl⟩ := List.mem_map.mp listed
  rw [Std.TreeMap.mem_toList_iff_getElem?_eq_some] at slot
  exact ⟨sender, sequence, _, by simp [found, slot, entry?], rfl⟩

theorem Holds.of_mem_select [DecidableEq V] (mem : sealedTx ∈ pool.select.1) : pool.Holds sealedTx :=
  holds_settle_iff.mp (Holds.of_mem_traverse mem)

theorem not_holds_empty {policy : Policy T V} : ¬(Pool.empty policy).Holds sealedTx := by
  rintro ⟨sender, sequence, entry, found, -⟩
  simp [empty, entry?] at found

end BlockBuilder.Pool
