import Mathlib.Data.List.TakeWhile
import BlockBuilder.Proofs.Pool.Standing

/-!
# Precedence

Along a selection the effective standings never rise (`descends_select_run`). Whatever has been
taken is not behind any rank still to come, and neither is what was taken before it from the same
sender (`Underway`); whatever is still to be taken has a rank still to come in front of it
(`Underway.exists_leads`). So each transaction goes ahead of the later ones (`Precedes`), and once
the weights are in line with the standings, the order of the ranks is that of the standings
(`Aligned.worth_le`).
-/
namespace BlockBuilder

variable {T V : Type} [Ord V]

namespace Rank

def Leads [Transaction T] (rank : Rank V) (sealedTx : SealedTx T) : Prop :=
  Transaction.sender? sealedTx.tx = some rank.sender ∧
    rank.sequence ≤ Transaction.sequence sealedTx.tx

theorem NotAfter.refl [Std.TransOrd V] (rank : Rank V) : rank.NotAfter rank :=
  notAfter_iff.mpr Std.ReflCmp.isLE_rfl

end Rank

namespace Pool

variable {pool : Pool T V} {rank high low : Rank V} {ranks rest : List (Rank V)}
  {remaining : Remaining T V} {sender : Address} {entry : Entry T V} {sealedTx : SealedTx T}

section Walks

variable [Transaction T]

def Precedes (pool : Pool T V) (earlier later : SealedTx T) : Prop :=
  ∀ high ∈ pool.ranks, high.Leads earlier →
    ∃ low ∈ pool.ranks, low.Leads later ∧ high.NotAfter low

/-- Every rank of the pool that is no longer waiting is not behind any rank still to come. -/
structure Underway (pool : Pool T V) (ranks : List (Rank V)) (remaining : Remaining T V) : Prop
    extends Ready ranks remaining where
  listed : ∀ rank ∈ ranks, rank ∈ pool.ranks
  ordered (sender : Address) : (waiting remaining sender).Pairwise fun earlier later =>
    Transaction.sequence earlier.sealedTx.tx < Transaction.sequence later.sealedTx.tx
  passed {rank : Rank V} (ranked : rank ∈ pool.ranks) :
    (∃ entry ∈ waiting remaining rank.sender, entry.ownRank rank.sender = rank) ∨
      ∀ next ∈ ranks, rank.NotAfter next

theorem Underway.exists_leads (underway : pool.Underway ranks remaining)
    (mem : sealedTx ∈ walk ranks remaining) : ∃ low ∈ ranks, low.Leads sealedTx := by
  obtain ⟨sender, queue, found, held⟩ := mem_walk mem
  obtain ⟨entry, listed, rfl⟩ := List.mem_map.mp held
  have whole : waiting remaining sender = queue := by
    rw [waiting, Std.TreeMap.getD_eq_getD_getElem?, found, Option.getD_some]
  cases queue with
  | nil => cases listed
  | cons first others =>
    -- the front of the queue is no later than whatever waits in it
    refine ⟨first.ownRank sender, underway.front whole, underway.sent (whole ▸ listed), ?_⟩
    rcases List.mem_cons.mp listed with rfl | behind
    · exact UInt64.le_refl _
    · have ordered := underway.ordered sender
      rw [whole] at ordered
      exact UInt64.le_of_lt (List.rel_of_pairwise_cons ordered behind)

variable [Std.TransOrd V]

theorem notAfter_of_inTurn (sorted : rest.Pairwise fun first second => compare first second = .lt)
    (turn : inTurn rest.head? entry = true) : ∀ next ∈ rest, (entry.ownRank sender).NotAfter next := by
  cases rest with
  | nil => exact fun _ mem => nomatch mem
  | cons first others =>
    have ahead := (inTurn_iff sender).mp turn first rfl
    obtain ⟨before, -⟩ := List.pairwise_cons.mp sorted
    exact List.forall_mem_cons.mpr ⟨ahead, fun next mem => ahead.trans (.of_lt (before next mem))⟩

theorem Underway.advance (underway : pool.Underway (rank :: rest) remaining) :
    pool.Underway rest (advance remaining rank.sender rest.head?) where
  toReady := underway.toReady.advance
  listed next mem := underway.listed next (List.mem_cons_of_mem _ mem)
  ordered sender :=
    (underway.ordered sender).sublist (sublist_waiting_advance remaining rank.sender)
  passed {other} ranked := by
    obtain ⟨-, sorted⟩ := List.pairwise_cons.mp underway.sorted
    rcases underway.passed ranked with ⟨entry, mem, own⟩ | ahead
    · rw [waiting_advance]
      split
      · rw [← List.takeWhile_append_dropWhile (p := inTurn rest.head?)
          (l := waiting remaining other.sender), List.mem_append] at mem
        rcases mem with taken | left
        · exact .inr (own ▸ notAfter_of_inTurn sorted (List.mem_takeWhile_imp taken))
        · exact .inl ⟨entry, left, own⟩
      · exact .inl ⟨entry, mem, own⟩
    · exact .inr (List.forall_mem_cons.mp ahead).2

theorem Underway.notAfter_taken (underway : pool.Underway (rank :: rest) remaining)
    (taken : entry ∈ (waiting remaining rank.sender).takeWhile (inTurn rest.head?))
    (ranked : high ∈ pool.ranks) (leads : high.Leads entry.sealedTx) :
    ∀ next ∈ rest, high.NotAfter next := by
  obtain ⟨signed, reached⟩ := leads
  have sent := underway.sent ((List.takeWhile_sublist _).subset taken)
  have same : rank.sender = high.sender := Option.some.inj (sent.symm.trans signed)
  rcases underway.advance.passed ranked with ⟨left, mem, own⟩ | ahead
  · -- what is left of the sender is later in sequence than what is taken
    rw [waiting_advance, if_pos same, ← same] at mem
    have ordered := underway.ordered rank.sender
    rw [← List.takeWhile_append_dropWhile (p := inTurn rest.head?)
      (l := waiting remaining rank.sender)] at ordered
    have behind := (List.pairwise_append.mp ordered).2.2 entry taken left mem
    have place : Transaction.sequence left.sealedTx.tx = high.sequence := congrArg Rank.sequence own
    rw [place] at behind
    exact absurd reached (UInt64.not_le.mpr behind)
  · exact ahead

theorem Underway.pairwise_walk (underway : pool.Underway ranks remaining) :
    (walk ranks remaining).Pairwise pool.Precedes := by
  induction ranks generalizing remaining with
  | nil => exact .nil
  | cons rank rest ih =>
    rw [walk_cons, List.pairwise_append]
    refine ⟨?_, ih underway.advance, ?_⟩
    · -- among one sender's, whatever leads the earlier leads the later
      refine List.pairwise_map.mpr (((underway.ordered rank.sender).sublist
        (List.takeWhile_sublist _)).imp_of_mem ?_)
      rintro earlier later first second before high ranked ⟨signed, reached⟩
      have sent := underway.sent ((List.takeWhile_sublist _).subset first)
      have sent' := underway.sent ((List.takeWhile_sublist _).subset second)
      exact ⟨high, ranked, ⟨sent'.trans (sent.symm.trans signed),
        UInt64.le_trans reached (UInt64.le_of_lt before)⟩, .refl high⟩
    · -- across the border, the rank in front of the later is still to come
      intro earlier first later second high ranked leads
      obtain ⟨entry, taken, rfl⟩ := List.mem_map.mp first
      obtain ⟨low, next, leads'⟩ := underway.advance.exists_leads second
      exact ⟨low, underway.advance.listed low next, leads',
        underway.notAfter_taken taken ranked leads low next⟩

variable [DecidableEq V] [Std.LawfulEqOrd V]

theorem Aligned.underway (aligned : pool.Aligned) :
    pool.Underway pool.ranks.toList pool.remaining where
  toReady := aligned.ready
  listed rank mem := Std.TreeSet.mem_toList.mp mem
  ordered sender := (List.pairwise_map (f := Entry.sealedTx)).mp (aligned.sequence_lt_waiting sender)
  passed {rank} ranked := by
    obtain ⟨entry, found, same⟩ := aligned.exists_entryAt ranked
    obtain ⟨-, place⟩ := SealedTx.slot?_eq_some_iff.mp (aligned.seated found)
    refine .inl ⟨entry, mem_waiting_iff.mpr ⟨rank.sequence, found⟩, ?_⟩
    rw [Entry.ownRank, place, Rank.slot_snd, same]

theorem Aligned.pairwise_traverse (aligned : pool.Aligned) : pool.traverse.Pairwise pool.Precedes :=
  aligned.underway.pairwise_walk

end Walks

def Descends {α : Type} [Ord α] (rating : SealedTx T → Option α) (earlier later : SealedTx T) : Prop :=
  ∃ high low, rating earlier = some high ∧ rating later = some low ∧ (compare low high).isLE = true

def priority? [Transaction T] (pool : Pool T V) (sealedTx : SealedTx T) : Option V :=
  sealedTx.slot?.bind fun slot => (pool.entryAt slot).map Entry.priority

def Single (pool : Pool T V) : Prop :=
  ∀ (sender : Address) (queue : Queue T V), pool.queues[sender]? = some queue → queue.size = 1

theorem single_iff : pool.Single ↔ ∀ held ∈ pool.queues.toList, held.2.size = 1 := by
  simp only [Single, Prod.forall, Std.TreeMap.mem_toList_iff_getElem?_eq_some]

instance : Decidable pool.Single := decidable_of_iff _ single_iff.symm

section Standings

variable [Transaction T] [DecidableEq V] {slot : Slot} {standing : Standing V}

theorem Aligned.mem_lead_iff (aligned : pool.Aligned) : standing ∈ pool.lead slot ↔
    ∃ rank ∈ pool.ranks, rank.sender = slot.1 ∧ rank.sequence ≤ slot.2 ∧ pool.worth rank = standing := by
  simp only [lead, List.mem_map, List.mem_filter, Prod.exists, exists_eq_right, decide_eq_true_eq,
    mem_standings_iff (pool.sorted_chain slot.1), mem_chain_iff]
  constructor
  · rintro ⟨sequence, ⟨_, ⟨entry, found, rfl⟩, rfl⟩, reached⟩
    exact ⟨_, aligned.tracks.mem found, rfl, reached, rfl⟩
  · rintro ⟨rank, ranked, same, reached, rfl⟩
    obtain ⟨entry, found, own⟩ := aligned.exists_entryAt ranked
    refine ⟨rank.sequence, ⟨rank.priority, ⟨entry, same ▸ found, ?_⟩, ?_⟩, reached⟩
    · exact congrArg Rank.priority own
    · rw [worth, same]

theorem Aligned.exists_own_rank (aligned : pool.Aligned) (held : pool.Holds sealedTx) :
    ∃ rank ∈ pool.ranks, rank.Leads sealedTx ∧ pool.priority? sealedTx = some rank.priority := by
  obtain ⟨slot, entry, found, meant, rfl⟩ := aligned.exists_of_holds held
  obtain ⟨signed, place⟩ := SealedTx.slot?_eq_some_iff.mp meant
  refine ⟨entry.rank slot.1 slot.2, aligned.tracks.mem found, ⟨signed, UInt64.le_of_eq place.symm⟩, ?_⟩
  rw [priority?, meant, Option.bind_some, found]
  rfl

variable [Std.TransOrd V] [Std.LawfulEqOrd V]

theorem Aligned.one_lt_countAt (aligned : pool.Aligned) (ranked : high ∈ pool.ranks)
    (ranked' : low ∈ pool.ranks) (differ : high ≠ low) (same : low.priority = high.priority) :
    1 < pool.countAt high.priority := by
  have erased := countP_erase ranked fun rank => rank.priority = high.priority
  have left : low ∈ (pool.ranks.erase high).toList := by simp [ranked', differ]
  have other : 0 < (pool.ranks.erase high).toList.countP fun rank => rank.priority = high.priority :=
    List.countP_pos_iff.mpr ⟨low, left, decide_eq_true same⟩
  rw [aligned.tracks.counted, ← erased, if_pos (decide_eq_true rfl)]
  omega

theorem Aligned.worth_le (aligned : pool.Aligned) (ranked : high ∈ pool.settle.ranks)
    (ranked' : low ∈ pool.settle.ranks) (ahead : high.NotAfter low) :
    pool.settle.worth low ≤ pool.settle.worth high := by
  rcases eq_or_ne high low with rfl | differ
  · exact Std.le_refl _
  rw [← Std.isLE_compare, Standing.isLE_iff]
  rcases Ordering.isLE_then_iff_or.mp (Rank.notAfter_iff.mp ahead) with lower | ⟨level, weights⟩
  · exact .inl lower
  · -- ranks of one priority have the weights of their standings
    have shared : low.priority = high.priority := Std.LawfulEqCmp.eq_of_compare level
    have counted := aligned.settle.one_lt_countAt ranked ranked' differ shared
    rw [compareOn, aligned.weight_settle ranked counted,
      aligned.weight_settle ranked' (shared ▸ counted)] at weights
    exact .inr ⟨level, weights⟩

theorem Aligned.exists_effective? (aligned : pool.Aligned) (held : pool.Holds sealedTx) :
    ∃ standing, pool.effective? sealedTx = some standing ∧
      (∃ rank ∈ pool.ranks, rank.Leads sealedTx ∧ pool.worth rank = standing) ∧
        ∀ rank ∈ pool.ranks, rank.Leads sealedTx → standing ≤ pool.worth rank := by
  obtain ⟨slot, entry, found, meant, rfl⟩ := aligned.exists_of_holds held
  obtain ⟨signed, place⟩ := SealedTx.slot?_eq_some_iff.mp meant
  have own : pool.worth (entry.rank slot.1 slot.2) ∈ pool.lead slot :=
    aligned.mem_lead_iff.mpr ⟨_, aligned.tracks.mem found, rfl, UInt64.le_refl _, rfl⟩
  obtain ⟨standing, lowest⟩ :=
    Option.isSome_iff_exists.mp (List.isSome_min?_iff.mpr (List.ne_nil_of_mem own))
  obtain ⟨mem, below⟩ := List.min?_eq_some_iff.mp lowest
  refine ⟨standing, by rw [effective?, meant, Option.bind_some, lowest], ?_, ?_⟩
  · obtain ⟨rank, ranked, same, reached, worth⟩ := aligned.mem_lead_iff.mp mem
    exact ⟨rank, ranked, ⟨same ▸ signed, place ▸ reached⟩, worth⟩
  · rintro rank ranked ⟨signed', reached⟩
    have same : rank.sender = slot.1 := Option.some.inj (signed'.symm.trans signed)
    exact below _ (aligned.mem_lead_iff.mpr ⟨rank, ranked, same, place ▸ reached, rfl⟩)

theorem Aligned.descends_select (aligned : pool.Aligned) :
    pool.select.1.Pairwise (Descends pool.effective?) := by
  have settled := aligned.settle
  refine settled.pairwise_traverse.imp_of_mem fun {earlier later} first second precedes => ?_
  obtain ⟨high, effective, ⟨rank, ranked, leads, rfl⟩, -⟩ :=
    settled.exists_effective? (settled.mem_traverse_iff.mp first)
  obtain ⟨low, effective', -, lowest⟩ :=
    settled.exists_effective? (settled.mem_traverse_iff.mp second)
  rw [aligned.effective?_settle] at effective effective'
  obtain ⟨rank', ranked', leads', ahead⟩ := precedes rank ranked leads
  exact ⟨_, low, effective, effective', Std.isLE_compare.mpr
    (Std.le_trans (lowest rank' ranked' leads') (aligned.worth_le ranked ranked' ahead))⟩

theorem Aligned.exists_leads_of_select (aligned : pool.Aligned) {before rest : List (SealedTx T)}
    {first : SealedTx T} (split : pool.select.1 = before ++ first :: rest)
    (mem : sealedTx ∈ first :: rest) :
    ∃ low ∈ pool.ranks, low.Leads sealedTx ∧ ∃ priority, pool.priority? first = some priority ∧
      (compare low.priority priority).isLE = true := by
  have held {other : SealedTx T} (mem : other ∈ first :: rest) : pool.Holds other :=
    .of_mem_select (split ▸ List.mem_append_right before mem)
  obtain ⟨own, ranked, leads, priority⟩ := aligned.exists_own_rank (held List.mem_cons_self)
  rcases List.mem_cons.mp mem with rfl | later
  · exact ⟨own, ranked, leads, own.priority, priority, Std.ReflCmp.isLE_rfl⟩
  have ordered := aligned.descends_select
  rw [split] at ordered
  obtain ⟨high, low, effective, effective', below⟩ :=
    List.rel_of_pairwise_cons (List.pairwise_append.mp ordered).2.1 later
  obtain ⟨_, same, -, lowest⟩ := aligned.exists_effective? (held List.mem_cons_self)
  cases effective.symm.trans same
  obtain ⟨_, same, ⟨rank, ranked', leads', rfl⟩, -⟩ := aligned.exists_effective? (held mem)
  cases effective'.symm.trans same
  -- the standing of the later one is that of a rank in front of it
  exact ⟨rank, ranked', leads', own.priority, priority, Std.TransCmp.isLE_trans
    (Standing.isLE_priority below) (Standing.isLE_priority (Std.isLE_compare.mpr (lowest own ranked leads)))⟩

theorem Aligned.effective?_of_single (aligned : pool.Aligned) (single : pool.Single)
    (held : pool.Holds sealedTx) :
    pool.effective? sealedTx = (pool.priority? sealedTx).map fun priority => ⟨priority, priority⟩ := by
  obtain ⟨slot, entry, found, meant, rfl⟩ := aligned.exists_of_holds held
  obtain ⟨queue, known, -⟩ := entryAt_eq_some_iff.mp found
  have alone : (pool.chain slot.1).length = 1 := by
    rw [chain, Std.TreeMap.length_toList, Std.TreeMap.size_map, Std.TreeMap.getD_eq_getD_getElem?,
      known, Option.getD_some, single slot.1 queue known]
  obtain ⟨only, whole⟩ := List.length_eq_one_iff.mp alone
  have mem : (slot.2, entry.priority) ∈ pool.chain slot.1 := mem_chain_iff.mpr ⟨entry, found, rfl⟩
  rw [whole, List.mem_singleton] at mem
  simp [effective?, priority?, lead, standings, firstOther, meant, found, whole, ← mem]

/-- After any sequence of operations, the effective standings never rise along a selection. If every
sender has a single transaction, the priorities never rise. -/
theorem descends_select_run (policy : Policy T V) (operations : List (Operation T V)) :
    let pool := (empty policy).run operations
    pool.select.1.Pairwise (Descends pool.effective?) ∧
      (pool.Single → pool.select.1.Pairwise (Descends pool.priority?)) := by
  intro pool
  have aligned : pool.Aligned := (aligned_empty policy).run operations
  refine ⟨aligned.descends_select, fun single => ?_⟩
  refine aligned.descends_select.imp_of_mem fun {earlier later} first second descends => ?_
  obtain ⟨high, low, effective, effective', ordered⟩ := descends
  rw [aligned.effective?_of_single single (.of_mem_select first), Option.map_eq_some_iff] at effective
  rw [aligned.effective?_of_single single (.of_mem_select second), Option.map_eq_some_iff] at effective'
  obtain ⟨high, known, rfl⟩ := effective
  obtain ⟨low, known', rfl⟩ := effective'
  exact ⟨high, low, known, known', Standing.isLE_priority ordered⟩

open Ledger in
/-- A first transaction of low priority holds up its sender's second one of high priority. -/
theorem descends_select_run_of_held_up :
    let tx := fun signer sequence : UInt64 => SealedTx.ofParts
      (Tx.transfer (Address.ofIndex signer) sequence 0) [signer.toUInt8, sequence.toUInt8]
    let chained : Pool Tx UInt64 := (empty {}).run
      [.insert 5 (tx 1 0), .insert 9 (tx 1 1), .insert 9 (tx 2 0), .insert 3 (tx 2 1), .insert 5 (tx 3 0)]
    let single : Pool Tx UInt64 := (empty {}).run
      [.insert 5 (tx 1 0), .insert 9 (tx 2 0), .insert 5 (tx 3 0)]
    chained.select.1.Pairwise (Descends chained.effective?) ∧
      single.Single ∧ single.select.1.Pairwise (Descends single.priority?) := by
  intro tx chained single
  have alone : single.Single := by decide
  exact ⟨(descends_select_run {} _).1, alone, (descends_select_run {} _).2 alone⟩

end Standings

end Pool

end BlockBuilder
