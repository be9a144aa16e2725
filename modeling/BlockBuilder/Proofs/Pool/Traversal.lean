import BlockBuilder.Proofs.Pool.Consistency

namespace BlockBuilder

namespace Rank

variable {V : Type} [Ord V] {first second third : Rank V}

def height : Rank V → Rank V → Ordering := compareLex (compareOn priority) (compareOn weight)

instance [Std.TransOrd V] : Std.TransCmp (height (V := V)) :=
  inferInstanceAs (Std.TransCmp (compareLex _ _))

def NotAfter (first second : Rank V) : Prop :=
  isAfter first.priority first.weight second = false

variable [Std.TransOrd V]

theorem notAfter_iff : first.NotAfter second ↔ (height second first).isLE = true := by
  have priorities : compare second.priority first.priority =
      (compare first.priority second.priority).swap := Std.OrientedCmp.eq_swap
  have weights : compare second.weight first.weight =
      (compare first.weight second.weight).swap := Std.OrientedCmp.eq_swap
  simp only [NotAfter, isAfter, height, compareLex, compareOn, priorities, weights]
  cases compare first.priority second.priority <;> cases compare first.weight second.weight <;>
    decide

theorem NotAfter.trans (before : first.NotAfter second) (after : second.NotAfter third) :
    first.NotAfter third :=
  notAfter_iff.mpr (Std.TransCmp.isLE_trans (notAfter_iff.mp after) (notAfter_iff.mp before))

theorem NotAfter.of_lt (sorted : compare first second = .lt) : first.NotAfter second := by
  have parts : order V first second = .lt := sorted
  rw [notAfter_iff]
  simp only [order, height, compareLex, descending, compareOn] at parts ⊢
  cases same : compare second.priority first.priority with
  | lt => rfl
  | eq =>
    cases alike : compare second.weight first.weight with
    | lt => rfl
    | eq => rfl
    | gt => simp [same, alike] at parts
  | gt => simp [same] at parts

end Rank

variable {T V : Type} [Ord V]

def Entry.ownRank [Transaction T] (entry : Entry T V) (sender : Address) : Rank V :=
  entry.rank sender (Transaction.sequence entry.sealedTx.tx)

namespace Pool

variable {pool : Pool T V} {rank : Rank V} {ranks rest : List (Rank V)} {remaining : Remaining T V}
  {sender : Address} {entry : Entry T V} {next : Option (Rank V)} {sealedTx : SealedTx T}

def waiting (remaining : Remaining T V) (sender : Address) : List (Entry T V) :=
  remaining.getD sender []

def advance (remaining : Remaining T V) (sender : Address) (next : Option (Rank V)) :
    Remaining T V :=
  remaining.insert sender ((waiting remaining sender).dropWhile (inTurn next))

theorem waiting_advance (remaining : Remaining T V) (other : Address) :
    waiting (advance remaining other next) sender =
      if other = sender then (waiting remaining sender).dropWhile (inTurn next)
      else waiting remaining sender := by
  simp only [waiting, advance, Std.TreeMap.getD_insert, Std.LawfulEqCmp.compare_eq_iff_eq]
  split
  · rename_i same
    rw [same]
  · rfl

theorem sublist_waiting_advance (remaining : Remaining T V) (other : Address) :
    (waiting (advance remaining other next) sender).Sublist (waiting remaining sender) := by
  rw [waiting_advance]
  split
  · exact List.dropWhile_sublist _
  · exact List.Sublist.refl _

theorem walk_cons : walk (rank :: rest) remaining =
    ((waiting remaining rank.sender).takeWhile (inTurn rest.head?)).map Entry.sealedTx ++
      walk rest (advance remaining rank.sender rest.head?) :=
  rfl

theorem waiting_remaining (pool : Pool T V) (sender : Address) :
    waiting pool.remaining sender = (pool.queues.getD sender ∅).toList.map Prod.snd := by
  rw [waiting, Pool.remaining, Std.TreeMap.getD_eq_getD_getElem?, Std.TreeMap.getD_eq_getD_getElem?,
    Std.TreeMap.getElem?_map]
  cases pool.queues[sender]? with
  | none => rfl
  | some queue => rfl

theorem mem_waiting_iff :
    entry ∈ waiting pool.remaining sender ↔ ∃ sequence, pool.entryAt (sender, sequence) = some entry := by
  simp only [waiting_remaining, List.mem_map, Prod.exists, exists_eq_right,
    mem_queue_iff]

def transactions (pool : Pool T V) : List (SealedTx T) :=
  pool.filled.map fun (_, entry) => entry.sealedTx

theorem mem_transactions_iff : sealedTx ∈ pool.transactions ↔ pool.Holds sealedTx := by
  simp only [transactions, List.mem_map, Prod.exists, mem_filled_iff]
  rfl

theorem pairwise_of_filter {α β : Type} [DecidableEq β] {key : α → β} {related : α → α → Prop}
    {list : List α}
    (each : ∀ value, (list.filter fun other => key other = value).Pairwise related) :
    list.Pairwise fun first second => key first = key second → related first second := by
  induction list with
  | nil => exact .nil
  | cons head tail ih =>
    refine List.pairwise_cons.mpr ⟨fun other mem same => ?_, ih fun value => ?_⟩
    · have front := each (key head)
      rw [List.filter_cons_of_pos (by simp)] at front
      exact List.rel_of_pairwise_cons front (List.mem_filter.mpr ⟨mem, by simp [same]⟩)
    · exact (each value).sublist ((List.sublist_cons_self head tail).filter _)

variable [Transaction T]

theorem inTurn_iff (sender : Address) :
    inTurn next entry = true ↔ ∀ rank ∈ next, (entry.ownRank sender).NotAfter rank := by
  cases next with
  | none => simp [inTurn]
  | some rank => simp [inTurn, Rank.NotAfter, Entry.ownRank, Entry.rank]

theorem Aligned.sequence_lt_waiting [DecidableEq V] (aligned : pool.Aligned) (sender : Address) :
    ((waiting pool.remaining sender).map Entry.sealedTx).Pairwise fun earlier later =>
      Transaction.sequence earlier.tx < Transaction.sequence later.tx := by
  have place {sequence : UInt64} {entry : Entry T V}
      (mem : (sequence, entry) ∈ (pool.queues.getD sender ∅).toList) :
      Transaction.sequence entry.sealedTx.tx = sequence :=
    (SealedTx.slot?_eq_some_iff.mp (aligned.seated (mem_queue_iff.mp mem))).2
  rw [waiting_remaining, List.map_map, List.pairwise_map]
  refine (pool.queues.getD sender ∅).ordered_keys_toList.imp_of_mem ?_
  intro earlier later first second before
  simp only [Function.comp_apply, place first, place second]
  exact Std.compare_eq_lt.mp before

theorem Aligned.nodup_transactions [DecidableEq V] (aligned : pool.Aligned) :
    pool.transactions.Nodup := by
  refine List.Nodup.of_map SealedTx.slot? ?_
  have slots : pool.transactions.map SealedTx.slot? = (pool.filled.map Prod.fst).map some := by
    rw [transactions, List.map_map, List.map_map]
    apply List.map_congr_left
    rintro ⟨slot, entry⟩ mem
    exact aligned.seated (mem_filled_iff.mp mem)
  rw [slots]
  exact pool.nodup_filled_slots.map fun _ _ => Option.some.inj

/-- Whoever is left can still be reached: the ranks are in order, each entry's own rank is to come
unless it is in turn already, and the rank of each front is to come. -/
structure Ready (ranks : List (Rank V)) (remaining : Remaining T V) : Prop where
  sorted : ranks.Pairwise fun first second => compare first second = .lt
  sent {sender : Address} {entry : Entry T V} (mem : entry ∈ waiting remaining sender) :
    Transaction.sender? entry.sealedTx.tx = some sender
  due {sender : Address} {entry : Entry T V} (mem : entry ∈ waiting remaining sender) :
    entry.ownRank sender ∈ ranks ∨ inTurn ranks.head? entry = true
  front {sender : Address} {entry : Entry T V} {later : List (Entry T V)}
    (first : waiting remaining sender = entry :: later) : entry.ownRank sender ∈ ranks

variable [Std.TransOrd V]

theorem Ready.advance (ready : Ready (rank :: rest) remaining) :
    Ready rest (advance remaining rank.sender rest.head?) := by
  obtain ⟨before, sorted⟩ := List.pairwise_cons.mp ready.sorted
  -- whatever is in turn at a rank is in turn at the next one
  have falls (next : Rank V) (mem : next ∈ rest.head?) : rank.NotAfter next :=
    .of_lt (before next (List.mem_of_mem_head? mem))
  have due {sender : Address} {entry : Entry T V} (mem : entry ∈ waiting remaining sender) :
      entry.ownRank sender ∈ rest ∨ inTurn rest.head? entry = true := by
    rcases ready.due mem with ranked | turn
    · rcases List.mem_cons.mp ranked with here | later
      · exact .inr ((inTurn_iff sender).mpr fun next mem => here ▸ falls next mem)
      · exact .inl later
    · have above := (inTurn_iff sender).mp turn rank rfl
      exact .inr ((inTurn_iff sender).mpr fun next mem => above.trans (falls next mem))
  refine ⟨sorted, fun mem => ready.sent ((sublist_waiting_advance remaining rank.sender).subset mem),
    fun mem => due ((sublist_waiting_advance remaining rank.sender).subset mem), ?_⟩
  intro sender entry later first
  have mem : entry ∈ waiting remaining sender :=
    (sublist_waiting_advance remaining rank.sender).subset (first ▸ List.mem_cons_self)
  rw [waiting_advance] at first
  split at first
  · -- the front that stopped the sender's turn is behind the next rank
    have waits : inTurn rest.head? entry = false := by
      have stop := List.head_dropWhile_not (inTurn rest.head?)
        (l := waiting remaining sender) (by simp [first])
      simpa [first] using stop
    rcases due mem with later | turn
    · exact later
    · rw [waits] at turn
      cases turn
  · rename_i other
    rcases List.mem_cons.mp (ready.front first) with here | later
    · exact absurd (congrArg Rank.sender here).symm other
    · exact later

theorem Ready.filter_walk (ready : Ready ranks remaining) (sender : Address) :
    (walk ranks remaining).filter (fun sealedTx => Transaction.sender? sealedTx.tx = some sender) =
      (waiting remaining sender).map Entry.sealedTx := by
  induction ranks generalizing remaining with
  | nil =>
    cases queue : waiting remaining sender with
    | nil => rfl
    | cons entry later => cases ready.front queue
  | cons rank rest ih =>
    have taken (sealedTx : SealedTx T) (mem : sealedTx ∈
        ((waiting remaining rank.sender).takeWhile (inTurn rest.head?)).map Entry.sealedTx) :
        Transaction.sender? sealedTx.tx = some rank.sender := by
      obtain ⟨entry, front, rfl⟩ := List.mem_map.mp mem
      exact ready.sent ((List.takeWhile_sublist _).subset front)
    rw [walk_cons, List.filter_append, ih ready.advance, waiting_advance]
    by_cases same : rank.sender = sender
    · subst same
      rw [if_pos rfl, List.filter_eq_self.mpr, ← List.map_append, List.takeWhile_append_dropWhile]
      intro sealedTx mem
      exact decide_eq_true (taken sealedTx mem)
    · rw [if_neg same, List.filter_eq_nil_iff.mpr, List.nil_append]
      intro sealedTx mem
      simp [taken sealedTx mem, same]

variable [DecidableEq V] [Std.LawfulEqOrd V]

theorem Aligned.ready (aligned : pool.Aligned) : Ready pool.ranks.toList pool.remaining := by
  have ranked {sender : Address} {entry : Entry T V} (mem : entry ∈ waiting pool.remaining sender) :
      entry.ownRank sender ∈ pool.ranks.toList := by
    obtain ⟨sequence, found⟩ := mem_waiting_iff.mp mem
    obtain ⟨-, place⟩ := SealedTx.slot?_eq_some_iff.mp (aligned.seated found)
    rw [Std.TreeSet.mem_toList, Entry.ownRank, place]
    exact aligned.tracks.mem found
  refine ⟨pool.ranks.ordered_toList, ?_, fun mem => .inl (ranked mem),
    fun first => ranked (first ▸ List.mem_cons_self)⟩
  intro sender entry mem
  obtain ⟨sequence, found⟩ := mem_waiting_iff.mp mem
  exact (SealedTx.slot?_eq_some_iff.mp (aligned.seated found)).1

theorem Aligned.mem_traverse_iff (aligned : pool.Aligned) :
    sealedTx ∈ pool.traverse ↔ pool.Holds sealedTx := by
  refine ⟨Holds.of_mem_traverse, ?_⟩
  rintro ⟨sender, sequence, entry, found, rfl⟩
  have mem : entry.sealedTx ∈ (waiting pool.remaining sender).map Entry.sealedTx :=
    List.mem_map_of_mem (mem_waiting_iff.mpr ⟨sequence, found⟩)
  rw [← aligned.ready.filter_walk sender] at mem
  exact (List.mem_filter.mp mem).1

structure GivesOut (pool : Pool T V) (txs : List (SealedTx T)) : Prop where
  perm : txs.Perm pool.transactions
  nodup : txs.Nodup
  ordered : txs.Pairwise fun earlier later =>
    Transaction.sender? earlier.tx = Transaction.sender? later.tx →
      Transaction.sequence earlier.tx < Transaction.sequence later.tx

theorem Aligned.ordered_traverse (aligned : pool.Aligned) : pool.traverse.Pairwise fun earlier later =>
    Transaction.sender? earlier.tx = Transaction.sender? later.tx →
      Transaction.sequence earlier.tx < Transaction.sequence later.tx := by
  refine pairwise_of_filter fun signer => ?_
  cases signer with
  | some sender =>
    have queue := aligned.sequence_lt_waiting sender
    rwa [← aligned.ready.filter_walk sender] at queue
  | none =>
    -- whatever is given out has a slot and so a sender
    rw [List.filter_eq_nil_iff.mpr]
    · exact .nil
    · intro sealedTx mem
      obtain ⟨slot, _, -, meant, -⟩ := aligned.exists_of_holds (aligned.mem_traverse_iff.mp mem)
      simp [(SealedTx.slot?_eq_some_iff.mp meant).1]

theorem Aligned.givesOut_traverse (aligned : pool.Aligned) : pool.GivesOut pool.traverse := by
  have nodup : pool.traverse.Nodup := by
    refine aligned.ordered_traverse.imp ?_
    rintro earlier later before rfl
    exact UInt64.lt_irrefl _ (before rfl)
  refine ⟨(List.perm_ext_iff_of_nodup nodup aligned.nodup_transactions).mpr fun sealedTx => ?_, nodup,
    aligned.ordered_traverse⟩
  rw [aligned.mem_traverse_iff, mem_transactions_iff]

theorem Aligned.givesOut_select (aligned : pool.Aligned) : pool.GivesOut pool.select.1 := by
  obtain ⟨perm, nodup, ordered⟩ := aligned.settle.givesOut_traverse
  refine ⟨(List.perm_ext_iff_of_nodup nodup aligned.nodup_transactions).mpr fun sealedTx => ?_, nodup, ordered⟩
  rw [perm.mem_iff, mem_transactions_iff, mem_transactions_iff, holds_settle_iff]

theorem Aligned.mem_select_iff (aligned : pool.Aligned) :
    sealedTx ∈ pool.select.1 ↔ pool.Holds sealedTx := by
  rw [aligned.givesOut_select.perm.mem_iff, mem_transactions_iff]

/-- After any sequence of operations, a selection gives out what the pool holds, each transaction
once and every sender's in sequence, whether the weights are brought up to date or not. -/
theorem givesOut_run (policy : Policy T V) (operations : List (Operation T V)) :
    let pool := (empty policy).run operations
    pool.GivesOut pool.select.1 ∧ pool.GivesOut pool.traverse := by
  intro pool
  have aligned : pool.Aligned := (aligned_empty policy).run operations
  exact ⟨aligned.givesOut_select, aligned.givesOut_traverse⟩

open Ledger in
theorem givesOut_run_of_late_turn :
    let first := SealedTx.ofParts (Tx.transfer (Address.ofIndex 1) 0 0) [1]
    let second := SealedTx.ofParts (Tx.transfer (Address.ofIndex 1) 1 0) [2]
    let rival := SealedTx.ofParts (Tx.transfer (Address.ofIndex 2) 0 0) [3]
    let operations : List (Operation Tx UInt64) :=
      [.insert 1 first, .insert 7 second, .insert 7 rival, .select, .insert 5 rival]
    let pool := (empty {}).run operations
    pool.GivesOut pool.select.1 ∧ pool.GivesOut pool.traverse :=
  givesOut_run {} _

end Pool

end BlockBuilder
