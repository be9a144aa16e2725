import BlockBuilder.Proofs.Pool.Precedence
import BlockBuilder.Proofs.Pool.SlotMap

/-!
# Selection by contents

A selection depends on what a pool holds alone: pools that hold the same transactions under the same
priorities give them out in the same order, whatever weights their histories have left behind
(`Aligned.select_eq_of_holding_eq`). Weights that are out of date belong to priorities that nobody
shares, and those are never compared.
-/
namespace BlockBuilder

namespace Pool

variable {T V : Type} [Ord V] {pool other : Pool T V} {rank high low : Rank V} {sender : Address}
  {entry : Entry T V}

theorem takeWhile_map_eq {α β : Type} {change : α → β} {test : β → Bool} {before : α → Bool}
    {list : List α} (same : ∀ value ∈ list, test (change value) = before value) :
    (list.map change).takeWhile test = (list.takeWhile before).map change ∧
      (list.map change).dropWhile test = (list.dropWhile before).map change := by
  induction list with
  | nil => exact ⟨rfl, rfl⟩
  | cons first rest ih =>
    obtain ⟨here, later⟩ := List.forall_mem_cons.mp same
    obtain ⟨taken, left⟩ := ih later
    cases passes : before first with
    | true => simp [here, passes, taken, left]
    | false => simp [here, passes]

theorem walk_map {change : Rank V → Rank V} {renew : Address → Entry T V → Entry T V}
    (senders : ∀ rank, (change rank).sender = rank.sender)
    (kept : ∀ sender entry, (renew sender entry).sealedTx = entry.sealedTx) {ranks : List (Rank V)}
    {remaining renewed : Remaining T V}
    (renews : ∀ sender, waiting renewed sender = (waiting remaining sender).map (renew sender))
    (turns : ∀ rank ∈ ranks, ∀ sender, ∀ entry ∈ waiting remaining sender,
      inTurn (some (change rank)) (renew sender entry) = inTurn (some rank) entry) :
    walk (ranks.map change) renewed = walk ranks remaining := by
  induction ranks generalizing remaining renewed with
  | nil => rfl
  | cons rank rest ih =>
    obtain ⟨-, later⟩ := List.forall_mem_cons.mp turns
    have turn (sender : Address) : ∀ entry ∈ waiting remaining sender,
        inTurn (rest.map change).head? (renew sender entry) = inTurn rest.head? entry := by
      intro entry mem
      cases rest with
      | nil => rfl
      | cons next others => exact later next List.mem_cons_self sender entry mem
    obtain ⟨taken, left⟩ := takeWhile_map_eq (turn rank.sender)
    rw [List.map_cons, walk_cons, walk_cons, senders, renews, taken, List.map_map]
    congr 1
    · exact List.map_congr_left fun entry _ => kept rank.sender entry
    · apply ih
      · intro sender
        rw [waiting_advance, waiting_advance]
        split
        · rename_i same
          subst same
          rw [renews, left]
        · exact renews sender
      · intro next mem sender entry listed
        exact later next mem sender entry
          ((sublist_waiting_advance remaining rank.sender).subset listed)

def line (pool : Pool T V) (sender : Address) : List (UInt64 × V × SealedTx T) :=
  ((pool.queues.getD sender ∅).map fun _ entry => (entry.priority, entry.sealedTx)).toList

theorem line_eq_of_holding_eq (same : pool.holding = other.holding) (sender : Address) :
    pool.line sender = other.line sender := by
  apply Std.TreeMap.Equiv.toList_eq
  apply Std.TreeMap.Equiv.of_forall_constGet?_eq
  intro sequence
  have held := congrArg (fun holding => holding[(sender, sequence)]?) same
  simpa only [getElem?_holding, Std.TreeMap.getElem?_map, getElem?_queue] using held

theorem chain_eq_map_line (pool : Pool T V) (sender : Address) :
    pool.chain sender = (pool.line sender).map fun (sequence, priority, _) => (sequence, priority) := by
  simp [chain, line, Std.TreeMap.toList_map]

theorem map_waiting_eq_map_line (pool : Pool T V) (sender : Address) :
    (waiting pool.remaining sender).map (fun entry => (entry.priority, entry.sealedTx)) =
      (pool.line sender).map Prod.snd := by
  simp [waiting_remaining, line, Std.TreeMap.toList_map]

variable [DecidableEq V]

/-- The rank with the weight that is due to it. -/
def due (pool : Pool T V) (rank : Rank V) : Rank V :=
  { rank with weight := some (pool.worth rank).weight }

def dueEntry [Transaction T] (pool : Pool T V) (sender : Address) (held : V × SealedTx T) :
    Entry T V where
  priority := held.1
  weight := some (pool.worth ⟨held.1, none, sender, Transaction.sequence held.2.tx⟩).weight
  sealedTx := held.2

theorem worth_eq_of_holding_eq (same : pool.holding = other.holding) (rank : Rank V) :
    pool.worth rank = other.worth rank := by
  simp only [worth, chain_eq_map_line, line_eq_of_holding_eq same]

theorem due_eq_of_holding_eq (same : pool.holding = other.holding) : pool.due = other.due := by
  funext rank
  rw [due, due, worth_eq_of_holding_eq same]

theorem dueEntry_eq_of_holding_eq [Transaction T] (same : pool.holding = other.holding)
    (sender : Address) : pool.dueEntry (T := T) sender = other.dueEntry sender := by
  funext held
  rw [dueEntry, dueEntry, worth_eq_of_holding_eq same]

theorem ownRank_dueEntry [Transaction T] (pool : Pool T V) (sender : Address) (entry : Entry T V) :
    (pool.dueEntry sender (entry.priority, entry.sealedTx)).ownRank sender =
      pool.due (entry.ownRank sender) :=
  rfl

variable [Transaction T] [Std.TransOrd V] [Std.LawfulEqOrd V]

theorem Aligned.due_of_shared (aligned : pool.Aligned) (ranked : high ∈ pool.settle.ranks)
    (ranked' : low ∈ pool.settle.ranks) (differ : high ≠ low) (same : low.priority = high.priority) :
    pool.due high = high := by
  have shared := aligned.settle.one_lt_countAt ranked ranked' differ same
  have weight := aligned.weight_settle ranked shared
  rw [due, ← aligned.worth_settle, ← weight]

theorem Aligned.notAfter_due_iff (aligned : pool.Aligned) (ranked : high ∈ pool.settle.ranks)
    (ranked' : low ∈ pool.settle.ranks) :
    (pool.due high).NotAfter (pool.due low) ↔ high.NotAfter low := by
  rcases eq_or_ne high low with rfl | differ
  · exact iff_of_true (.refl _) (.refl _)
  by_cases same : low.priority = high.priority
  · rw [aligned.due_of_shared ranked ranked' differ same,
      aligned.due_of_shared ranked' ranked differ.symm same.symm]
  · -- different priorities decide alone
    have apart : compare high.priority low.priority ≠ .eq := fun level =>
      same (Std.LawfulEqCmp.eq_of_compare level).symm
    simp only [Rank.NotAfter, Rank.isAfter, due]
    cases decided : compare high.priority low.priority with
    | lt => rfl
    | eq => exact absurd decided apart
    | gt => rfl

theorem Aligned.compare_due (aligned : pool.Aligned) (ranked : high ∈ pool.settle.ranks)
    (ranked' : low ∈ pool.settle.ranks) (before : compare high low = .lt) :
    compare (pool.due high) (pool.due low) = .lt := by
  have differ : high ≠ low := by
    rintro rfl
    rw [Std.ReflOrd.compare_self] at before
    cases before
  by_cases same : low.priority = high.priority
  · rwa [aligned.due_of_shared ranked ranked' differ same,
      aligned.due_of_shared ranked' ranked differ.symm same.symm]
  · have apart : compare low.priority high.priority ≠ .eq := fun level =>
      same (Std.LawfulEqCmp.eq_of_compare level)
    change Rank.order V _ _ = .lt at before
    change Rank.order V _ _ = .lt
    simp only [Rank.order, compareLex, descending, compareOn, due] at before ⊢
    cases decided : compare low.priority high.priority with
    | lt => rfl
    | eq => exact absurd decided apart
    | gt => simp [decided] at before

theorem Aligned.mem_map_due_iff (aligned : pool.Aligned) :
    rank ∈ pool.settle.ranks.toList.map pool.due ↔ ∃ priority sealedTx,
      pool.holding[rank.slot]? = some (priority, sealedTx) ∧
        rank = pool.due ⟨priority, none, rank.sender, rank.sequence⟩ := by
  rw [← aligned.holding_settle]
  simp only [List.mem_map, Std.TreeSet.mem_toList, holding_eq_some_iff]
  constructor
  · rintro ⟨settled, ranked, rfl⟩
    obtain ⟨entry, found, same⟩ := aligned.settle.exists_entryAt ranked
    have own : entry.priority = settled.priority := congrArg Rank.priority same
    refine ⟨entry.priority, entry.sealedTx, ⟨entry, found, rfl, rfl⟩, ?_⟩
    simp only [due, worth, own]
  · rintro ⟨_, _, ⟨entry, found, rfl, rfl⟩, same⟩
    refine ⟨entry.rank rank.sender rank.sequence, aligned.settle.tracks.mem found, ?_⟩
    rw [same]
    rfl

theorem Aligned.sorted_map_due (aligned : pool.Aligned) :
    (pool.settle.ranks.toList.map pool.due).Pairwise fun first second =>
      compare first second = .lt := by
  refine List.pairwise_map.mpr (pool.settle.ranks.ordered_toList.imp_of_mem ?_)
  intro first second ranked ranked' before
  exact aligned.compare_due (Std.TreeSet.mem_toList.mp ranked) (Std.TreeSet.mem_toList.mp ranked') before

theorem Aligned.map_due_eq_of_holding_eq (aligned : pool.Aligned) (aligned' : other.Aligned)
    (same : pool.holding = other.holding) :
    pool.settle.ranks.toList.map pool.due = other.settle.ranks.toList.map other.due := by
  have nodup {ranks : List (Rank V)}
      (sorted : ranks.Pairwise fun first second => compare first second = .lt) : ranks.Nodup := by
    refine sorted.imp ?_
    rintro first second before rfl
    rw [Std.ReflOrd.compare_self] at before
    cases before
  have sorted := aligned.sorted_map_due
  have sorted' := aligned'.sorted_map_due
  refine List.Perm.eq_of_pairwise ?_ sorted sorted' ?_
  · intro first second _ _ before after
    exact absurd before (Std.OrientedCmp.not_lt_of_lt after)
  · refine (List.perm_ext_iff_of_nodup (nodup sorted) (nodup sorted')).mpr fun rank => ?_
    rw [aligned.mem_map_due_iff, aligned'.mem_map_due_iff, same, due_eq_of_holding_eq same]

omit [Std.TransOrd V] [Std.LawfulEqOrd V] in
theorem Aligned.ownRank_mem (aligned : pool.Aligned) (mem : entry ∈ waiting pool.remaining sender) :
    entry.ownRank sender ∈ pool.ranks := by
  obtain ⟨sequence, found⟩ := mem_waiting_iff.mp mem
  obtain ⟨-, place⟩ := SealedTx.slot?_eq_some_iff.mp (aligned.seated found)
  rw [Entry.ownRank, place]
  exact aligned.tracks.mem found

theorem Aligned.select_eq_walk (aligned : pool.Aligned) {renewed : Remaining T V}
    (renews : ∀ sender, waiting renewed sender =
      ((pool.line sender).map Prod.snd).map (pool.dueEntry sender)) :
    pool.select.1 = walk (pool.settle.ranks.toList.map pool.due) renewed := by
  have lines (sender : Address) : pool.settle.line sender = pool.line sender :=
    line_eq_of_holding_eq aligned.holding_settle sender
  let renew (sender : Address) (entry : Entry T V) : Entry T V :=
    pool.dueEntry sender (entry.priority, entry.sealedTx)
  have renews' (sender : Address) :
      waiting renewed sender = (waiting pool.settle.remaining sender).map (renew sender) := by
    rw [renews, ← lines, ← map_waiting_eq_map_line, List.map_map]
    rfl
  have turns : ∀ rank ∈ pool.settle.ranks.toList, ∀ sender,
      ∀ entry ∈ waiting pool.settle.remaining sender,
        inTurn (some (pool.due rank)) (renew sender entry) = inTurn (some rank) entry := by
    intro rank ranked sender entry mem
    rw [Bool.eq_iff_iff, inTurn_iff sender, inTurn_iff sender, ownRank_dueEntry]
    simp only [Option.mem_some_iff, forall_eq']
    exact aligned.notAfter_due_iff (aligned.settle.ownRank_mem mem) (Std.TreeSet.mem_toList.mp ranked)
  have senders (rank : Rank V) : (pool.due rank).sender = rank.sender := rfl
  have kept (sender : Address) (entry : Entry T V) :
      (renew sender entry).sealedTx = entry.sealedTx := rfl
  exact (walk_map senders kept renews' turns).symm

theorem Aligned.select_eq_of_holding_eq (aligned : pool.Aligned) (aligned' : other.Aligned)
    (same : pool.holding = other.holding) : pool.select.1 = other.select.1 := by
  let renewed : Remaining T V := pool.queues.map fun sender _ =>
    ((pool.line sender).map Prod.snd).map (pool.dueEntry sender)
  have renews (sender : Address) : waiting renewed sender =
      ((pool.line sender).map Prod.snd).map (pool.dueEntry sender) := by
    rw [waiting, Std.TreeMap.getD_eq_getD_getElem?, Std.TreeMap.getElem?_map]
    cases known : pool.queues[sender]? with
    | none =>
      rw [line, Std.TreeMap.getD_eq_getD_getElem?, known]
      rfl
    | some queue => rfl
  have renews' (sender : Address) : waiting renewed sender =
      ((other.line sender).map Prod.snd).map (other.dueEntry sender) := by
    rw [renews, line_eq_of_holding_eq same, dueEntry_eq_of_holding_eq same]
  rw [aligned.select_eq_walk renews, aligned'.select_eq_walk renews',
    aligned.map_due_eq_of_holding_eq aligned' same]

end Pool

end BlockBuilder
