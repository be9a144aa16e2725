import Mathlib.Data.Set.Card
import BlockBuilder.Proofs.Pool.Eviction
import BlockBuilder.Proofs.Pool.Traversal
import BlockBuilder.Proofs.Registry.Evolution

namespace BlockBuilder

namespace Pool

variable {T V : Type} [Ord V] {pool after : Pool T V} {sealedTx other : SealedTx T} {digest : Digest}

theorem holds_iff_exists_held : pool.Holds sealedTx ↔
    ∃ (slot : Slot) (priority : V), pool.holding[slot]? = some (priority, sealedTx) := by
  refine ⟨Holds.exists_held, ?_⟩
  rintro ⟨slot, priority, held⟩
  obtain ⟨entry, found, -, rfl⟩ := holding_eq_some_iff.mp held
  exact holds_of_entryAt found

theorem Indexes.contains_iff_exists_holds (indexes : pool.Indexes pool.entryAt) (digest : Digest) :
    pool.contains digest = true ↔ ∃ sealedTx, pool.Holds sealedTx ∧ sealedTx.digest = digest := by
  rw [indexes.contains_iff digest]
  constructor
  · rintro ⟨slot, priority, sealedTx, held, same⟩
    exact ⟨sealedTx, holds_iff_exists_held.mpr ⟨slot, priority, held⟩, same⟩
  · rintro ⟨sealedTx, holds, same⟩
    obtain ⟨slot, priority, held⟩ := holds.exists_held
    exact ⟨slot, priority, sealedTx, held, same⟩

theorem Indexes.holds_remove_iff (indexes : pool.Indexes pool.entryAt)
    (done : pool.remove digest = .ok after) :
    after.Holds other ↔ pool.Holds other ∧ other.digest ≠ digest := by
  simp only [holds_iff_exists_held, indexes.held_remove_iff done, exists_and_right]

theorem Indexes.exists_remove_of_contains (indexes : pool.Indexes pool.entryAt)
    (known : pool.contains digest = true) : ∃ after, pool.remove digest = .ok after := by
  obtain ⟨slot, located⟩ := exists_slot_of_contains known
  exact (indexes.exists_remove located).2

variable [Transaction T] [DecidableEq V] [Std.TransOrd V] [Std.LawfulEqOrd V]

theorem Aligned.length_select (aligned : pool.Aligned) : pool.select.1.length = pool.size := by
  rw [aligned.givesOut_select.perm.length_eq, transactions, List.length_map, aligned.size_eq]

theorem Indexes.nodup_digests (indexes : pool.Indexes pool.entryAt) (aligned : pool.Aligned) :
    (pool.select.1.map SealedTx.digest).Nodup := by
  refine aligned.givesOut_select.nodup.map_on fun first mem second mem' same => ?_
  exact indexes.eq_of_holds (aligned.mem_select_iff.mp mem) (aligned.mem_select_iff.mp mem') same

end Pool

variable {C T : Type} [Transaction T] [BlockState C]

theorem StandardLane.select_fst (lane : StandardLane C T) :
    (BlockLane.select lane).1 = lane.pool.select.1 := by
  cases lane <;> rfl

namespace Registry

def Holds (registry : Registry (StandardLane C T)) (sealedTx : SealedTx T) : Prop :=
  ∃ lane ∈ registry.lanes, lane.pool.Holds sealedTx

variable {registry : Registry (StandardLane C T)} {sealedTx first second : SealedTx T}

theorem holds_select_iff : registry.select.2.Holds sealedTx ↔ registry.Holds sealedTx := by
  have settled (lane : StandardLane C T) : (BlockLane.select lane).2.pool = lane.pool.settle := by
    cases lane <;> rfl
  simp only [Holds, select, List.map_map, List.mem_map, Function.comp_apply,
    exists_exists_and_eq_and, settled, Pool.holds_settle_iff]

theorem Holds.of_mem_select (mem : sealedTx ∈ registry.select.1) : registry.Holds sealedTx := by
  simp only [select, List.mem_flatMap, List.mem_map] at mem
  obtain ⟨_, ⟨lane, listed, rfl⟩, selected⟩ := mem
  rw [lane.select_fst] at selected
  exact ⟨lane, listed, .of_mem_select selected⟩

/-- Pools in order, whose transactions are told apart by their digests and are held by the first lane
that accepts them. -/
structure Housed (registry : Registry (StandardLane C T)) : Prop where
  aligned {lane : StandardLane C T} (mem : lane ∈ registry.lanes) : lane.pool.Aligned
  indexes {lane : StandardLane C T} (mem : lane ∈ registry.lanes) : lane.pool.Indexes lane.pool.entryAt
  nonempty {sealedTx : SealedTx T} (holds : registry.Holds sealedTx) : Nonempty C
  first {position : Nat} {lane : StandardLane C T} (found : registry.lanes[position]? = some lane)
    {sealedTx : SealedTx T} (holds : lane.pool.Holds sealedTx) (state : C) :
    registry.lanes.findIdx? (fun lane => lane.accepts state sealedTx.tx) = some position
  distinct {first second : SealedTx T} (holds : registry.Holds first) (holds' : registry.Holds second)
    (same : first.digest = second.digest) : first.tx = second.tx

namespace Housed

variable (housed : registry.Housed)
include housed

omit [BlockState C] in
theorem eq_position {position other : Nat} {lane rival : StandardLane C T}
    (found : registry.lanes[position]? = some lane) (holds : lane.pool.Holds first)
    (found' : registry.lanes[other]? = some rival) (holds' : rival.pool.Holds second)
    (same : first.digest = second.digest) : position = other := by
  have held : registry.Holds first := ⟨lane, List.mem_of_getElem? found, holds⟩
  obtain ⟨state⟩ := housed.nonempty held
  have own := housed.first found holds state
  have tx := housed.distinct held ⟨rival, List.mem_of_getElem? found', holds'⟩ same
  rw [tx, housed.first found' holds' state] at own
  exact (Option.some.inj own).symm

omit [BlockState C] in
theorem apart : registry.lanes.Pairwise fun lane rival => ∀ first second, lane.pool.Holds first →
    rival.pool.Holds second → first.digest ≠ second.digest := by
  rw [List.pairwise_iff_getElem]
  intro position other bound bound' before first second holds holds' same
  have position_eq := housed.eq_position (List.getElem?_eq_getElem bound) holds
    (List.getElem?_eq_getElem bound') holds' same
  exact before.ne position_eq

theorem contains_lane_iff {lane : StandardLane C T} (mem : lane ∈ registry.lanes) (digest : Digest) :
    BlockLane.contains lane digest = true ↔
      ∃ sealedTx, lane.pool.Holds sealedTx ∧ sealedTx.digest = digest :=
  (housed.indexes mem).contains_iff_exists_holds digest

theorem contains_iff_exists_holds (digest : Digest) :
    registry.contains digest = true ↔
      ∃ sealedTx, registry.Holds sealedTx ∧ sealedTx.digest = digest := by
  rw [contains, List.any_eq_true]
  constructor
  · rintro ⟨lane, mem, known⟩
    obtain ⟨sealedTx, holds, same⟩ := (housed.contains_lane_iff mem digest).mp known
    exact ⟨sealedTx, ⟨lane, mem, holds⟩, same⟩
  · rintro ⟨sealedTx, ⟨lane, mem, holds⟩, same⟩
    exact ⟨lane, mem, (housed.contains_lane_iff mem digest).mpr ⟨sealedTx, holds, same⟩⟩

theorem contains_iff_existsUnique (digest : Digest) :
    registry.contains digest = true ↔ ∃! position : Nat, ∃ lane, registry.lanes[position]? = some lane ∧
      BlockLane.contains lane digest = true := by
  constructor
  · intro known
    obtain ⟨lane, mem, known⟩ := List.any_eq_true.mp known
    obtain ⟨position, found⟩ := List.mem_iff_getElem?.mp mem
    refine ⟨position, ⟨lane, found, known⟩, ?_⟩
    rintro other ⟨rival, found', known'⟩
    obtain ⟨first, holds, same⟩ := (housed.contains_lane_iff mem digest).mp known
    obtain ⟨second, holds', same'⟩ :=
      (housed.contains_lane_iff (List.mem_of_getElem? found') digest).mp known'
    exact housed.eq_position found' holds' found holds (same'.trans same.symm)
  · rintro ⟨position, ⟨lane, found, known⟩, -⟩
    exact List.any_eq_true.mpr ⟨lane, List.mem_of_getElem? found, known⟩

theorem mem_select_iff : sealedTx ∈ registry.select.1 ↔ registry.Holds sealedTx := by
  simp only [select, List.mem_flatMap, List.mem_map]
  constructor
  · rintro ⟨_, ⟨lane, mem, rfl⟩, selected⟩
    rw [lane.select_fst, (housed.aligned mem).mem_select_iff] at selected
    exact ⟨lane, mem, selected⟩
  · rintro ⟨lane, mem, holds⟩
    rw [← (housed.aligned mem).mem_select_iff, ← lane.select_fst] at holds
    exact ⟨_, ⟨lane, mem, rfl⟩, holds⟩

theorem length_select : registry.select.1.length = registry.size := by
  have counted {lanes : List (StandardLane C T)} (orderly : ∀ lane ∈ lanes, lane.pool.Aligned) :
      (lanes.flatMap fun lane => (BlockLane.select lane).1).length =
        lanes.foldr (fun lane count => BlockLane.size lane + count) 0 := by
    induction lanes with
    | nil => rfl
    | cons lane rest ih =>
      obtain ⟨aligned, orderly⟩ := List.forall_mem_cons.mp orderly
      have size : BlockLane.size lane = lane.pool.size := rfl
      rw [List.flatMap_cons, List.length_append, List.foldr_cons, ih orderly, lane.select_fst,
        aligned.length_select, size]
  rw [size, ← counted fun lane mem => housed.aligned mem]
  simp [select, List.flatMap_map]

theorem nodup_digests : (registry.select.1.map SealedTx.digest).Nodup := by
  simp only [select, List.flatMap_map, List.map_flatMap]
  refine List.nodup_flatMap.mpr ⟨fun lane mem => ?_, ?_⟩
  · rw [lane.select_fst]
    exact (housed.indexes mem).nodup_digests (housed.aligned mem)
  · refine housed.apart.imp_of_mem fun {lane rival} mem mem' apart => ?_
    rintro digest known known'
    obtain ⟨first, selected, rfl⟩ := List.mem_map.mp known
    obtain ⟨second, selected', same⟩ := List.mem_map.mp known'
    rw [lane.select_fst, (housed.aligned mem).mem_select_iff] at selected
    rw [rival.select_fst, (housed.aligned mem').mem_select_iff] at selected'
    exact apart first second selected selected' same.symm

theorem ncard_digests :
    {digest | ∃ sealedTx, registry.Holds sealedTx ∧ sealedTx.digest = digest}.ncard = registry.size := by
  have listed : {digest | ∃ sealedTx, registry.Holds sealedTx ∧ sealedTx.digest = digest} =
      ((registry.select.1.map SealedTx.digest).toFinset : Set Digest) := by
    ext digest
    simp [housed.mem_select_iff]
  rw [listed, Set.ncard_coe_finset, List.toFinset_card_of_nodup housed.nodup_digests, List.length_map,
    housed.length_select]

omit housed in
theorem removeFirst_cases (digest : Digest) (lanes : List (StandardLane C T)) :
    (lanes.any (fun lane => BlockLane.contains lane digest) = false ∧
      removeFirst digest lanes = .error (.pool (.notFound digest))) ∨
    ∃ before lane rest, lanes = before ++ lane :: rest ∧ BlockLane.contains lane digest = true ∧
      removeFirst digest lanes =
        (BlockLane.remove lane digest).map fun changed => before ++ changed :: rest := by
  induction lanes with
  | nil => exact .inl ⟨rfl, rfl⟩
  | cons lane rest ih =>
    rw [removeFirst]
    cases known : BlockLane.contains lane digest with
    | true => exact .inr ⟨[], lane, rest, rfl, known, rfl⟩
    | false =>
      rcases ih with ⟨none, refused⟩ | ⟨before, owner, others, rfl, known', removed⟩
      · refine .inl ⟨by rw [List.any_cons, known, none]; rfl, ?_⟩
        rw [refused]
        rfl
      · refine .inr ⟨lane :: before, owner, others, rfl, known', ?_⟩
        rw [removed]
        cases BlockLane.remove owner digest <;> rfl

theorem remove_cases (digest : Digest) :
    (registry.contains digest = false ∧ registry.remove digest = .error (.pool (.notFound digest))) ∨
    registry.contains digest = true ∧ ∃ after, registry.remove digest = .ok after ∧
      ∀ other, after.Holds other ↔ registry.Holds other ∧ other.digest ≠ digest := by
  rcases removeFirst_cases digest registry.lanes with
    ⟨none, refused⟩ | ⟨before, lane, rest, split, known, removed⟩
  · exact .inl ⟨none, by rw [remove, refused]; rfl⟩
  · have mem : lane ∈ registry.lanes := split ▸ List.mem_append_right before List.mem_cons_self
    obtain ⟨pool, done⟩ := (housed.indexes mem).exists_remove_of_contains known
    have changed : BlockLane.remove lane digest = .ok (lane.withPool pool) := by
      have taken : lane.remove digest = .ok (lane.withPool pool) := by rw [StandardLane.remove_eq, done]
      exact taken
    refine .inr ⟨List.any_eq_true.mpr ⟨lane, mem, known⟩, ⟨before ++ lane.withPool pool :: rest⟩, ?_, ?_⟩
    · rw [remove, removed, changed]
      rfl
    intro other
    -- whatever another lane holds has another digest than what this lane gives up
    obtain ⟨owned, holds, same⟩ := (housed.contains_lane_iff mem digest).mp known
    have apart := housed.apart
    rw [split, List.pairwise_append, List.pairwise_cons] at apart
    obtain ⟨-, ⟨later, -⟩, earlier⟩ := apart
    have differs {rival : StandardLane C T} (mem' : rival ∈ before ∨ rival ∈ rest)
        (holds' : rival.pool.Holds other) : other.digest ≠ digest := by
      rw [← same]
      rcases mem' with ahead | behind
      · exact earlier rival ahead lane List.mem_cons_self other owned holds' holds
      · exact (later rival behind owned other holds holds').symm
    have own : pool.Holds other ↔ lane.pool.Holds other ∧ other.digest ≠ digest :=
      (housed.indexes mem).holds_remove_iff done
    rw [Holds, Holds, split]
    simp only [List.mem_append, List.mem_cons]
    constructor
    · rintro ⟨rival, ahead | rfl | behind, holds'⟩
      · exact ⟨⟨rival, .inl ahead, holds'⟩, differs (.inl ahead) holds'⟩
      · rw [StandardLane.pool_withPool, own] at holds'
        exact ⟨⟨lane, .inr (.inl rfl), holds'.1⟩, holds'.2⟩
      · exact ⟨⟨rival, .inr (.inr behind), holds'⟩, differs (.inr behind) holds'⟩
    · rintro ⟨⟨rival, ahead | rfl | behind, holds'⟩, differ⟩
      · exact ⟨rival, .inl ahead, holds'⟩
      · refine ⟨rival.withPool pool, .inr (.inl rfl), ?_⟩
        rw [StandardLane.pool_withPool, own]
        exact ⟨holds', differ⟩
      · exact ⟨rival, .inr (.inr behind), holds'⟩

theorem contains_iff_of_left {after : Registry (StandardLane C T)} {digest : Digest}
    (housed' : after.Housed)
    (left : ∀ other, after.Holds other ↔ registry.Holds other ∧ other.digest ≠ digest) (other : Digest) :
    after.contains other = true ↔ registry.contains other = true ∧ other ≠ digest := by
  rw [housed'.contains_iff_exists_holds, housed.contains_iff_exists_holds]
  constructor
  · rintro ⟨sealedTx, holds, rfl⟩
    obtain ⟨held, differ⟩ := (left sealedTx).mp holds
    exact ⟨⟨sealedTx, held, rfl⟩, differ⟩
  · rintro ⟨⟨sealedTx, held, rfl⟩, differ⟩
    exact ⟨sealedTx, (left sealedTx).mpr ⟨held, differ⟩, rfl⟩

end Housed

end Registry

end BlockBuilder
