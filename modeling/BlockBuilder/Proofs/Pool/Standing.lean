import BlockBuilder.Proofs.Pool.Traversal

namespace BlockBuilder

structure Standing (V : Type) where
  priority : V
  weight : V
  deriving DecidableEq

namespace Standing

variable {V : Type} [Ord V]

def order (V : Type) [Ord V] : Standing V → Standing V → Ordering :=
  compareLex (compareOn priority) (compareOn weight)

instance : Ord (Standing V) := ⟨order V⟩

instance instTransOrdStanding [Std.TransOrd V] : Std.TransOrd (Standing V) :=
  inferInstanceAs (Std.TransCmp (compareLex _ _))

instance instLawfulEqOrdStanding [Std.TransOrd V] [Std.LawfulEqOrd V] :
    Std.LawfulEqOrd (Standing V) where
  compare_self := Std.ReflOrd.compare_self
  eq_of_compare := by
    intro first second same
    have parts : order V first second = .eq := same
    simp only [order, compareLex_eq_eq, compareOn] at parts
    obtain ⟨priority, weight⟩ := parts
    cases first
    cases second
    simp_all

instance [Std.TransOrd V] [Std.LawfulEqOrd V] : Std.LinearOrderPackage (Standing V) := .ofOrd _

variable {first second : Standing V}

theorem isLE_iff : (compare first second).isLE = true ↔
    compare first.priority second.priority = .lt ∨
      compare first.priority second.priority = .eq ∧
        (compare first.weight second.weight).isLE = true :=
  Ordering.isLE_then_iff_or

theorem isLE_priority (below : (compare first second).isLE = true) :
    (compare first.priority second.priority).isLE = true :=
  Ordering.isLE_left_of_isLE_then below

end Standing

def firstOther {V : Type} [DecidableEq V] (own : V) : List V → V
  | [] => own
  | later :: rest => if later = own then firstOther own rest else later

def standings {V : Type} [DecidableEq V] : List (UInt64 × V) → List (UInt64 × Standing V)
  | [] => []
  | (sequence, priority) :: later =>
    (sequence, ⟨priority, firstOther priority (later.map Prod.snd)⟩) :: standings later

theorem find?_getD_eq_firstOther {V : Type} [DecidableEq V] (own : V) (priorities : List V) :
    (priorities.find? (fun priority => priority ≠ own)).getD own = firstOther own priorities := by
  induction priorities with
  | nil => rfl
  | cons later rest ih =>
    by_cases same : later = own
    · simp [firstOther, same, ← ih]
    · simp [firstOther, same]

def prioritiesAfter {V : Type} (chain : List (UInt64 × V)) (sequence : UInt64) : List V :=
  (chain.filter fun later => sequence < later.1).map Prod.snd

theorem Pool.laterPriority_eq_firstOther {T V : Type} [DecidableEq V] (queue : Queue T V)
    (sequence : UInt64) (own : V) :
    laterPriority queue sequence own =
      firstOther own (prioritiesAfter (queue.map fun _ entry => entry.priority).toList sequence) := by
  rw [laterPriority, find?_getD_eq_firstOther, prioritiesAfter, Std.TreeMap.toList_map,
    List.filter_map, List.map_map]
  rfl

theorem mem_standings_iff {V : Type} [DecidableEq V] {chain : List (UInt64 × V)}
    (sorted : chain.Pairwise fun earlier later => earlier.1 < later.1) {sequence : UInt64}
    {standing : Standing V} :
    (sequence, standing) ∈ standings chain ↔ ∃ priority, (sequence, priority) ∈ chain ∧
      standing = ⟨priority, firstOther priority (prioritiesAfter chain sequence)⟩ := by
  induction chain with
  | nil => simp [standings]
  | cons head later ih =>
    obtain ⟨first, own⟩ := head
    obtain ⟨before, sorted⟩ := List.pairwise_cons.mp sorted
    have whole : prioritiesAfter ((first, own) :: later) first = later.map Prod.snd := by
      rw [prioritiesAfter, List.filter_cons_of_neg (by simp [UInt64.lt_irrefl]),
        List.filter_eq_self.mpr]
      exact fun next mem => decide_eq_true (before next mem)
    have rest {sequence : UInt64} {priority : V} (mem : (sequence, priority) ∈ later) :
        prioritiesAfter ((first, own) :: later) sequence = prioritiesAfter later sequence := by
      have behind : ¬sequence < first := UInt64.lt_asymm (before _ mem)
      rw [prioritiesAfter, List.filter_cons_of_neg (by simpa using behind), prioritiesAfter]
    simp only [standings, List.mem_cons, Prod.mk.injEq, ih sorted]
    constructor
    · rintro (⟨rfl, rfl⟩ | ⟨priority, mem, rfl⟩)
      · exact ⟨own, .inl ⟨rfl, rfl⟩, by rw [whole]⟩
      · exact ⟨priority, .inr mem, by rw [rest mem]⟩
    · rintro ⟨priority, ⟨rfl, rfl⟩ | mem, rfl⟩
      · exact .inl ⟨rfl, by rw [whole]⟩
      · exact .inr ⟨priority, mem, by rw [rest mem]⟩

namespace Pool

variable {T V : Type} [Ord V] {pool : Pool T V} {sender : Address} {sequence : UInt64}
  {rank : Rank V}

def chain (pool : Pool T V) (sender : Address) : List (UInt64 × V) :=
  ((pool.queues.getD sender ∅).map fun _ entry => entry.priority).toList

def lead [DecidableEq V] (pool : Pool T V) (slot : Slot) : List (Standing V) :=
  ((standings (pool.chain slot.1)).filter fun earlier => earlier.1 ≤ slot.2).map Prod.snd

/-- The lowest standing among a sender's transactions up to the given one. -/
def effective? [Transaction T] [DecidableEq V] [Std.TransOrd V] [Std.LawfulEqOrd V]
    (pool : Pool T V) (sealedTx : SealedTx T) : Option (Standing V) :=
  sealedTx.slot?.bind fun slot => (pool.lead slot).min?

theorem sorted_chain (pool : Pool T V) (sender : Address) :
    (pool.chain sender).Pairwise fun earlier later => earlier.1 < later.1 :=
  (Std.TreeMap.ordered_keys_toList ..).imp Std.compare_eq_lt.mp

theorem mem_chain_iff {priority : V} : (sequence, priority) ∈ pool.chain sender ↔
    ∃ entry, pool.entryAt (sender, sequence) = some entry ∧ entry.priority = priority := by
  simp only [chain, Std.TreeMap.toList_map, List.mem_map, Prod.exists, Prod.mk.injEq,
    mem_queue_iff]
  constructor
  · rintro ⟨_, entry, mem, rfl, rfl⟩
    exact ⟨entry, mem, rfl⟩
  · rintro ⟨entry, mem, rfl⟩
    exact ⟨sequence, entry, mem, rfl, rfl⟩

def worth [DecidableEq V] (pool : Pool T V) (rank : Rank V) : Standing V :=
  ⟨rank.priority, firstOther rank.priority (prioritiesAfter (pool.chain rank.sender) rank.sequence)⟩

theorem weight?_eq_some [DecidableEq V] {entry : Entry T V}
    (found : pool.entryAt rank.slot = some entry)
    (same : entry.rank rank.sender rank.sequence = rank) :
    pool.weight? rank.sender rank.sequence = some (pool.worth rank).weight := by
  obtain ⟨queue, known, listed⟩ := entryAt_eq_some_iff.mp found
  rw [Rank.slot_fst] at known
  rw [Rank.slot_snd] at listed
  have own : rank.priority = entry.priority := congrArg Rank.priority same.symm
  have whole : pool.queues.getD rank.sender ∅ = queue := by
    rw [Std.TreeMap.getD_eq_getD_getElem?, known, Option.getD_some]
  simp only [weight?, known, listed, Option.bind_eq_bind, Option.bind_some, Option.pure_def,
    laterPriority_eq_firstOther, worth, chain, whole, own]

theorem chain_reweigh {entry : Entry T V} (found : pool.entryAt rank.slot = some entry) (weight : V)
    (sender : Address) : (pool.reweigh rank weight).chain sender = pool.chain sender := by
  apply Std.TreeMap.Equiv.toList_eq
  apply Std.TreeMap.Equiv.of_forall_constGet?_eq
  intro sequence
  simp only [Std.TreeMap.getElem?_map, getElem?_queue, entryAt_reweigh rank weight found,
    Function.update_apply]
  split
  · rename_i here
    simp [here, found]
  · rfl

variable [DecidableEq V] [Transaction T]

theorem staleWeight?_of_shared (aligned : pool.Aligned) (ranked : rank ∈ pool.ranks)
    (shared : 1 < pool.countAt rank.priority) :
    rank.weight = some (pool.worth rank).weight ∨
      pool.staleWeight? rank = some (rank, (pool.worth rank).weight) := by
  obtain ⟨entry, found, same⟩ := aligned.exists_entryAt ranked
  by_cases fresh : rank.weight = some (pool.worth rank).weight
  · exact .inl fresh
  · right
    simp [staleWeight?, shared, weight?_eq_some found same, fresh]

/-- On the way to a settled pool, every weight that is out of date is still to be changed. -/
structure Refreshing (pool : Pool T V) (changes : List (Rank V × V)) (settled : Pool T V) : Prop where
  tally : settled.tally = pool.tally
  due : ∀ change ∈ changes, change.2 = (pool.worth change.1).weight
  fresh {slot : Slot} {entry : Entry T V} (found : settled.entryAt slot = some entry)
    (shared : 1 < pool.countAt entry.priority) :
    entry.weight = some (pool.worth (entry.rank slot.1 slot.2)).weight ∨
      ∃ change ∈ changes, change.1.slot = slot

theorem Refreshing.reweigh {settled : Pool T V} {weight : V} {rest : List (Rank V × V)}
    (refreshing : pool.Refreshing ((rank, weight) :: rest) settled) (aligned : settled.Aligned)
    (ranked : rank ∈ settled.ranks) : pool.Refreshing rest (settled.reweigh rank weight) := by
  obtain ⟨tally, due, fresh⟩ := refreshing
  obtain ⟨here, later⟩ := List.forall_mem_cons.mp due
  obtain ⟨entry, found, same⟩ := aligned.exists_entryAt ranked
  refine ⟨tally, later, fun {slot changed} met shared => ?_⟩
  rw [entryAt_reweigh rank weight found, Function.update_apply] at met
  split at met
  · rename_i slot_eq
    cases met
    have own : entry.priority = rank.priority := congrArg Rank.priority same
    exact .inl (by simpa [slot_eq, worth, Entry.rank, own] using here)
  · rename_i slot_ne
    rcases fresh met shared with current | ⟨change, mem, rfl⟩
    · exact .inl current
    · rcases List.mem_cons.mp mem with rfl | mem
      · exact absurd rfl slot_ne
      · exact .inr ⟨change, mem, rfl⟩

variable [Std.TransOrd V] [Std.LawfulEqOrd V]

theorem Aligned.refreshing_start (aligned : pool.Aligned) :
    pool.Refreshing (pool.ranks.toList.filterMap pool.staleWeight?) pool := by
  refine ⟨rfl, fun change mem => ?_, fun {slot entry} found shared => ?_⟩
  · obtain ⟨rank, listed, stale⟩ := List.mem_filterMap.mp mem
    obtain ⟨rfl, due⟩ := staleWeight?_eq_some stale
    obtain ⟨entry, found, same⟩ := aligned.exists_entryAt (Std.TreeSet.mem_toList.mp listed)
    exact Option.some.inj (due.symm.trans (weight?_eq_some found same))
  · have ranked := aligned.tracks.mem found
    rcases staleWeight?_of_shared aligned ranked shared with fresh | stale
    · exact .inl fresh
    · exact .inr ⟨_, List.mem_filterMap.mpr ⟨_, Std.TreeSet.mem_toList.mpr ranked, stale⟩, rfl⟩

theorem Aligned.chain_settle (aligned : pool.Aligned) (sender : Address) :
    pool.settle.chain sender = pool.chain sender :=
  aligned.settle_eq (fun pool => pool.chain sender)
    fun _ _ _ weight found => chain_reweigh found weight sender

theorem Aligned.worth_settle (aligned : pool.Aligned) (rank : Rank V) :
    pool.settle.worth rank = pool.worth rank := by
  rw [worth, worth, aligned.chain_settle]

theorem Aligned.effective?_settle (aligned : pool.Aligned) (sealedTx : SealedTx T) :
    pool.settle.effective? sealedTx = pool.effective? sealedTx := by
  simp only [effective?, lead, aligned.chain_settle]

theorem Aligned.weight_settle (aligned : pool.Aligned) (ranked : rank ∈ pool.settle.ranks)
    (shared : 1 < pool.settle.countAt rank.priority) :
    rank.weight = some (pool.settle.worth rank).weight := by
  obtain ⟨settled, tally, -, fresh⟩ := settle_induction (motive := pool.Refreshing) aligned
    aligned.refreshing_start fun _ _ _ _ aligned ranked refreshing => refreshing.reweigh aligned ranked
  obtain ⟨entry, found, same⟩ := settled.exists_entryAt ranked
  have own : entry.priority = rank.priority := congrArg Rank.priority same
  have weight : entry.weight = rank.weight := congrArg Rank.weight same
  rw [countAt, tally, ← own] at shared
  rcases fresh found shared with due | ⟨_, mem, -⟩
  · rw [aligned.worth_settle, ← weight, due, Rank.slot_fst, Rank.slot_snd, same]
  · cases mem

end Pool

end BlockBuilder
