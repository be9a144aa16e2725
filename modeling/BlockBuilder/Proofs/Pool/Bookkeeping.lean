import BlockBuilder.Proofs.Pool.Slots

namespace BlockBuilder

namespace Pool

variable {T V : Type} [Ord V] {pool : Pool T V} {view : Slot → Option (Entry T V)} {slot : Slot}
  {entry : Entry T V} {priority : V} {sealedTx : SealedTx T}

theorem uncount_ne_zero [Std.TransOrd V] {tally : Std.TreeMap V Nat}
    (positive : ∀ priority : V, tally[priority]? ≠ some 0) (priority other : V) :
    (uncount tally priority)[other]? ≠ some 0 := by
  unfold uncount
  cases found : tally[priority]? with
  | none => exact positive other
  | some count =>
    by_cases last : count ≤ 1
    · simp only [last, if_true, Std.TreeMap.getElem?_erase]
      split
      · simp
      · exact positive other
    · simp only [last, if_false, Std.TreeMap.getElem?_insert]
      split
      · simp only [ne_eq, Option.some.injEq]
        omega
      · exact positive other

section Tracks

variable [DecidableEq V]

/-- The entries of the map are ranked and counted, and nothing else is. -/
structure Tracks (pool : Pool T V) (view : Slot → Option (Entry T V)) : Prop where
  ranked (rank : Rank V) : rank ∈ pool.ranks ↔
    ∃ entry, view rank.slot = some entry ∧ entry.rank rank.sender rank.sequence = rank
  counted (priority : V) :
    pool.countAt priority = pool.ranks.toList.countP fun rank => rank.priority = priority
  positive (priority : V) : pool.tally[priority]? ≠ some 0

theorem Tracks.mem (tracks : pool.Tracks view) (found : view slot = some entry) :
    entry.rank slot.1 slot.2 ∈ pool.ranks :=
  (tracks.ranked _).mpr ⟨entry, found, rfl⟩

theorem Tracks.not_mem (tracks : pool.Tracks view) (vacant : view slot = none) {rank : Rank V}
    (here : rank.slot = slot) : rank ∉ pool.ranks := by
  intro mem
  obtain ⟨entry, found, -⟩ := (tracks.ranked rank).mp mem
  rw [here, vacant] at found
  cases found

theorem tracks_empty [Std.TransOrd V] (policy : Policy T V) : (empty policy).Tracks fun _ => none where
  ranked rank := by simp [empty]
  counted priority := by
    have nothing : (∅ : Std.TreeSet (Rank V)).toList = [] := rfl
    simp [empty, countAt, nothing]
  positive priority := by simp [empty]

variable [Std.TransOrd V] [Std.LawfulEqOrd V]

theorem countP_insert {ranks : Std.TreeSet (Rank V)} {rank : Rank V} (new : rank ∉ ranks)
    (test : Rank V → Bool) :
    (ranks.insert rank).toList.countP test = ranks.toList.countP test + if test rank then 1 else 0 := by
  have listed := ranks.toList_insert_perm (k := rank)
  rw [if_neg new] at listed
  rw [listed.countP_eq, List.countP_cons]

theorem countP_erase {ranks : Std.TreeSet (Rank V)} {rank : Rank V} (mem : rank ∈ ranks)
    (test : Rank V → Bool) :
    (ranks.erase rank).toList.countP test + (if test rank then 1 else 0) =
      ranks.toList.countP test := by
  have gone : rank ∉ ranks.erase rank := by simp
  have same : (ranks.erase rank).insert rank |>.Equiv ranks := by
    apply Std.TreeSet.Equiv.of_forall_mem_iff
    intro other
    by_cases here : rank = other
    · subst here
      simp [mem]
    · simp [here]
  rw [← countP_insert gone, same.toList_eq]

theorem getD_uncount (tally : Std.TreeMap V Nat) (priority other : V) :
    (uncount tally priority).getD other 0 =
      tally.getD other 0 - if priority = other then 1 else 0 := by
  simp only [uncount, Std.TreeMap.getD_eq_getD_getElem?]
  by_cases here : priority = other
  · subst here
    cases found : tally[priority]? with
    | none => simp [found]
    | some count =>
      by_cases last : count ≤ 1
      · simp [last]
      · simp [last]
  · cases found : tally[priority]? with
    | none => simp [here]
    | some count =>
      by_cases last : count ≤ 1
      · simp [last, here, Std.TreeMap.getElem?_erase]
      · simp [last, here, Std.TreeMap.getElem?_insert]

theorem Tracks.withdraw (tracks : pool.Tracks view) (found : view slot = some entry) (digest : Digest) :
    (pool.withdraw (entry.rank slot.1 slot.2) digest).Tracks (Function.update view slot none) where
  ranked rank := by
    have member := tracks.ranked rank
    simp only [Pool.withdraw, Std.TreeSet.mem_erase, ne_eq, Std.LawfulEqCmp.compare_eq_iff_eq, member,
      Function.update_apply]
    by_cases here : rank.slot = slot
    · subst here
      simp [found]
    · have differ : entry.rank slot.1 slot.2 ≠ rank := by
        rintro rfl
        exact here rfl
      simp [here, differ]
  counted other := by
    have erased := countP_erase (tracks.mem found) fun rank => rank.priority = other
    have counted := tracks.counted other
    simp only [countAt, Pool.withdraw, getD_uncount, decide_eq_true_eq] at erased counted ⊢
    omega
  positive := uncount_ne_zero tracks.positive _

theorem Tracks.place (tracks : pool.Tracks view) (vacant : view slot = none) (priority : V)
    (sealedTx : SealedTx T) :
    (pool.place priority slot.1 slot.2 sealedTx).Tracks
      (Function.update view slot (some ⟨priority, none, sealedTx⟩)) where
  ranked rank := by
    have member := tracks.ranked rank
    simp only [Pool.place, Std.TreeSet.mem_insert, Std.LawfulEqCmp.compare_eq_iff_eq, member,
      Function.update_apply]
    by_cases here : rank.slot = slot
    · subst here
      simp [vacant, Entry.rank]
    · have differ : (⟨priority, none, slot.1, slot.2⟩ : Rank V) ≠ rank := by
        rintro rfl
        exact here rfl
      simp [here, differ]
  counted other := by
    have new : (⟨priority, none, slot.1, slot.2⟩ : Rank V) ∉ pool.ranks := tracks.not_mem vacant rfl
    have inserted := countP_insert new fun rank => rank.priority = other
    have counted := tracks.counted other
    simp only [countAt, Pool.place, Std.TreeMap.getD_insert, Std.LawfulEqCmp.compare_eq_iff_eq,
      decide_eq_true_eq] at inserted counted ⊢
    rw [inserted, ← counted]
    by_cases same : priority = other
    · simp [same]
    · simp [same]
  positive other := by
    simp only [Pool.place, Std.TreeMap.getElem?_insert]
    split
    · simp
    · exact tracks.positive other

theorem Tracks.reweigh (tracks : pool.Tracks view) (found : view slot = some entry) (weight : V) :
    (pool.reweigh (entry.rank slot.1 slot.2) weight).Tracks
      (Function.update view slot (some { entry with weight := some weight })) where
  ranked rank := by
    have member := tracks.ranked rank
    simp only [Pool.reweigh, Std.TreeSet.mem_insert, Std.TreeSet.mem_erase, ne_eq,
      Std.LawfulEqCmp.compare_eq_iff_eq, member, Function.update_apply]
    by_cases here : rank.slot = slot
    · subst here
      simp [found, Entry.rank]
    · have differ : entry.rank slot.1 slot.2 ≠ rank := by
        rintro rfl
        exact here rfl
      have differ' : { entry.rank slot.1 slot.2 with weight := some weight } ≠ rank := by
        rintro rfl
        exact here rfl
      simp [here, differ, differ']
  counted other := by
    have gone : { entry.rank slot.1 slot.2 with weight := some weight } ∉
        (pool.withdraw (entry.rank slot.1 slot.2) default).ranks :=
      (tracks.withdraw found default).not_mem (Function.update_self ..) rfl
    have inserted := countP_insert gone fun rank => rank.priority = other
    have erased := countP_erase (tracks.mem found) fun rank => rank.priority = other
    have counted := tracks.counted other
    simp only [countAt, Pool.reweigh, Pool.withdraw] at inserted erased counted ⊢
    omega
  positive := tracks.positive

end Tracks

/-- The digests of the map's transactions lead to their slots, and no other digest leads anywhere. -/
def Indexes (pool : Pool T V) (view : Slot → Option (Entry T V)) : Prop :=
  ∀ (digest : Digest) (slot : Slot), pool.slots[digest]? = some slot ↔
    ∃ entry, view slot = some entry ∧ entry.sealedTx.digest = digest

theorem indexes_empty (policy : Policy T V) : (empty policy).Indexes fun _ => none := by
  intro digest slot
  simp [empty]

theorem Indexes.eq_of_digest_eq (indexes : pool.Indexes view) {other : Slot} {rival : Entry T V}
    (found : view slot = some entry) (met : view other = some rival)
    (same : rival.sealedTx.digest = entry.sealedTx.digest) : other = slot := by
  have here := (indexes _ slot).mpr ⟨entry, found, rfl⟩
  have there := (indexes _ other).mpr ⟨rival, met, same⟩
  exact Option.some.inj (there.symm.trans here)

theorem Indexes.withdraw (indexes : pool.Indexes view) (found : view slot = some entry)
    (rank : Rank V) :
    (pool.withdraw rank entry.sealedTx.digest).Indexes (Function.update view slot none) := by
  intro digest other
  simp only [Pool.withdraw, Std.HashMap.getElem?_erase, beq_iff_eq, Function.update_apply]
  by_cases gone : entry.sealedTx.digest = digest
  · simp only [gone, if_true, reduceCtorEq, false_iff, not_exists, not_and]
    intro rival met same
    split at met
    · cases met
    · rename_i differ
      exact differ (indexes.eq_of_digest_eq found met (same.trans gone.symm))
  · rw [if_neg gone, indexes digest other]
    by_cases here : other = slot
    · subst here
      simp [found, gone]
    · simp [here]

theorem Indexes.place (indexes : pool.Indexes view) (vacant : view slot = none) (priority : V)
    (fresh : ∀ other rival, view other = some rival → rival.sealedTx.digest ≠ sealedTx.digest) :
    (pool.place priority slot.1 slot.2 sealedTx).Indexes
      (Function.update view slot (some ⟨priority, none, sealedTx⟩)) := by
  intro digest other
  simp only [Pool.place, Std.HashMap.getElem?_insert, beq_iff_eq, Function.update_apply]
  by_cases here : other = slot
  · subst here
    by_cases own : sealedTx.digest = digest
    · simp [own]
    · simp [own, indexes digest other, vacant]
  · by_cases own : sealedTx.digest = digest
    · simp only [own, if_true, Option.some.injEq, here, if_false, Ne.symm here, false_iff,
        not_exists, not_and]
      intro rival met same
      exact fresh other rival met (same.trans own.symm)
    · simp [own, here, indexes digest other]

theorem Indexes.reweigh (indexes : pool.Indexes view) (found : view slot = some entry) (rank : Rank V)
    (weight : V) :
    (pool.reweigh rank weight).Indexes
      (Function.update view slot (some { entry with weight := some weight })) := by
  intro digest other
  refine (indexes digest other).trans ?_
  rw [Function.update_apply]
  by_cases here : other = slot
  · subst here
    simp [found]
  · simp [here]

end Pool

end BlockBuilder
