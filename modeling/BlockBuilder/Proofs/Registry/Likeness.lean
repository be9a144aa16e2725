import BlockBuilder.Admission
import BlockBuilder.Proposal
import BlockBuilder.Proofs.Builder.Lanes
import BlockBuilder.Proofs.Pool.Likeness

namespace BlockBuilder

variable {C T : Type} [Transaction T] [BlockState C] {state : C} {sealedTx : SealedTx T}
  {digest : Digest}

namespace StandardLane

variable {lane other : StandardLane C T}

def Alike (lane other : StandardLane C T) : Prop :=
  ∃ pool, lane.pool.Alike pool ∧ other = lane.withPool pool

namespace Alike

omit [BlockState C] in
theorem withPool (alike : lane.Alike other) {first second : Pool T UInt64} (pools : first.Alike second) :
    (lane.withPool first).Alike (other.withPool second) := by
  obtain ⟨pool, -, rfl⟩ := alike
  refine ⟨second, (pool_withPool first).symm ▸ pools, ?_⟩
  cases lane <;> rfl

omit [BlockState C] in
theorem pool (alike : lane.Alike other) : lane.pool.Alike other.pool := by
  obtain ⟨pool, pools, rfl⟩ := alike
  exact (pool_withPool pool).symm ▸ pools

theorem name (alike : lane.Alike other) : BlockLane.name lane = BlockLane.name other := by
  obtain ⟨pool, -, rfl⟩ := alike
  cases lane <;> rfl

theorem share (alike : lane.Alike other) : BlockLane.share lane = BlockLane.share other := by
  obtain ⟨pool, -, rfl⟩ := alike
  cases lane <;> rfl

theorem accepts (alike : lane.Alike other) (tx : T) :
    BlockLane.accepts lane state tx = BlockLane.accepts other state tx := by
  obtain ⟨pool, -, rfl⟩ := alike
  cases lane <;> rfl

theorem contains (alike : lane.Alike other) (digest : Digest) :
    BlockLane.contains lane digest = BlockLane.contains other digest :=
  congrArg (·.contains digest) alike.pool.slots

omit [BlockState C] in
theorem takes (alike : lane.Alike other) {first second : Except PoolError (Pool T UInt64)} :
    Agrees Pool.Alike first second → Agrees Alike
      (match first with
        | .ok pool => .ok (lane.withPool pool)
        | .error cause => .error (.pool cause) : Except LaneError (StandardLane C T))
      (match second with
        | .ok pool => .ok (other.withPool pool)
        | .error cause => .error (.pool cause) : Except LaneError (StandardLane C T)) := by
  rintro (pools | cause)
  · exact .ok (alike.withPool pools)
  · exact .error (LaneError.pool cause)

theorem insert (alike : lane.Alike other) (state : C) (sealedTx : SealedTx T) :
    Agrees Alike (BlockLane.insert lane state sealedTx) (BlockLane.insert other state sealedTx) := by
  have priorities : lane.priorityOf state sealedTx.tx = other.priorityOf state sealedTx.tx := by
    obtain ⟨pool, -, rfl⟩ := alike
    cases lane <;> rfl
  change Agrees Alike (lane.insert state sealedTx) (other.insert state sealedTx)
  rw [insert_eq, insert_eq, ← priorities]
  exact alike.takes (alike.pool.insert _ sealedTx)

theorem remove (alike : lane.Alike other) (digest : Digest) :
    Agrees Alike (BlockLane.remove lane digest) (BlockLane.remove other digest) := by
  change Agrees Alike (lane.remove digest) (other.remove digest)
  rw [remove_eq, remove_eq]
  exact alike.takes (alike.pool.remove digest)

theorem select (alike : lane.Alike other) :
    (BlockLane.select lane).1 = (BlockLane.select other).1 ∧
      (BlockLane.select lane).2.Alike (BlockLane.select other).2 := by
  obtain ⟨pool, pools, rfl⟩ := alike
  cases lane with
  | auction lane => exact ⟨pools.select_eq, pool.settle, pools.settle, rfl⟩
  | general lane => exact ⟨pools.select_eq, pool.settle, pools.settle, rfl⟩

end Alike
end StandardLane

structure Attempt.Alike {L : Type} (like : L → L → Prop) (first second : Attempt L C) : Prop where
  result : first.result = second.result
  lanes : like first.lanes second.lanes
  state : first.state = second.state

theorem Pool.Alike.removeAll {pool other : Pool T UInt64} (pools : pool.Alike other)
    (digests : List Digest) : (pool.removeAll digests).Alike (other.removeAll digests) := by
  rw [removeAll_eq_run, removeAll_eq_run]
  exact pools.run _

open StandardLane in
theorem StandardLane.Alike.contribute {lane other : StandardLane C T} (alike : lane.Alike other)
    (draft : Draft) (limit : Nat) (state : C) :
    Attempt.Alike StandardLane.Alike (BlockLane.contribute lane draft limit state)
      (BlockLane.contribute other draft limit state) := by
  obtain ⟨pool, pools, rfl⟩ := alike
  have selected := pools.select_eq
  cases lane with
  | auction lane =>
    change Attempt.Alike Alike (wrap .auction (lane.contribute draft limit state))
      (wrap .auction (AuctionLane.contribute { lane with pool } draft limit state))
    change lane.pool.select.1 = pool.select.1 at selected
    simp only [AuctionLane.contribute_eq, lane.choose_withPool pool, selected]
    exact ⟨rfl, ⟨_, pools.settle.removeAll _, rfl⟩, rfl⟩
  | general lane =>
    change Attempt.Alike Alike (wrap .general (lane.contribute draft limit state))
      (wrap .general (GeneralLane.contribute { lane with pool } draft limit state))
    change lane.pool.select.1 = pool.select.1 at selected
    simp only [GeneralLane.contribute_eq, lane.pick_withPool pool, selected]
    exact ⟨rfl, ⟨_, pools.settle.removeAll _, rfl⟩, rfl⟩

variable {lanes others : List (StandardLane C T)}

theorem Chain.alike_buildUpTo (count : Nat) (alike : List.Forall₂ StandardLane.Alike lanes others)
    (draft : Draft) (state : C) :
    Attempt.Alike (List.Forall₂ StandardLane.Alike) (buildUpTo count lanes draft state)
      (buildUpTo count others draft state) := by
  induction count generalizing lanes others draft state with
  | zero => exact ⟨rfl, alike, rfl⟩
  | succ count ih =>
    cases alike with
    | nil => exact ⟨rfl, .nil, rfl⟩
    | @cons lane other rest rest' first alike =>
      have own := first.contribute draft (draft.allowance (BlockLane.share lane)) state
      have share : BlockLane.share lane = BlockLane.share other := first.share
      have ratified (lane : StandardLane C T) : BlockLane.ratify lane = .ok () := rfl
      rw [buildUpTo, buildUpTo, ← share]
      dsimp only
      rw [← own.result, ← own.state]
      split
      · have later := ih alike draft state
        exact ⟨later.result, .cons own.lanes later.lanes, later.state⟩
      · rename_i extended _
        have later := ih alike extended (BlockLane.contribute lane draft
          (draft.allowance (BlockLane.share lane)) state).state
        simp only [ratified, ← later.result]
        split
        · exact ⟨later.result, .cons own.lanes later.lanes, later.state⟩
        · have again := ih later.lanes draft state
          exact ⟨again.result, .cons own.lanes again.lanes, again.state⟩

namespace Registry

variable {registry other : Registry (StandardLane C T)}

def Alike (registry other : Registry (StandardLane C T)) : Prop :=
  List.Forall₂ StandardLane.Alike registry.lanes other.lanes

theorem alike_insertFirst (alike : List.Forall₂ StandardLane.Alike lanes others) :
    Agrees (List.Forall₂ StandardLane.Alike) (insertFirst state sealedTx lanes)
      (insertFirst state sealedTx others) := by
  induction alike with
  | nil => exact .error _
  | cons first alike ih =>
    rw [insertFirst, insertFirst, first.accepts]
    split
    · exact (first.insert state sealedTx).map fun _ _ changed => .cons changed alike
    · exact ih.map fun _ _ changed => .cons first changed

theorem alike_removeFirst (alike : List.Forall₂ StandardLane.Alike lanes others) :
    Agrees (List.Forall₂ StandardLane.Alike) (removeFirst digest lanes) (removeFirst digest others) := by
  induction alike with
  | nil => exact .error _
  | cons first alike ih =>
    rw [removeFirst, removeFirst, first.contains]
    split
    · exact (first.remove digest).map fun _ _ changed => .cons changed alike
    · exact ih.map fun _ _ changed => .cons first changed

theorem alike_replaceFirst_select (name : String)
    (alike : List.Forall₂ StandardLane.Alike lanes others) :
    (lanes.find? (fun candidate => BlockLane.name candidate == name) = none ∧
      others.find? (fun candidate => BlockLane.name candidate == name) = none) ∨
    ∃ lane other, lanes.find? (fun candidate => BlockLane.name candidate == name) = some lane ∧
      others.find? (fun candidate => BlockLane.name candidate == name) = some other ∧ lane.Alike other ∧
        List.Forall₂ StandardLane.Alike (replaceFirst name (BlockLane.select lane).2 lanes)
          (replaceFirst name (BlockLane.select other).2 others) := by
  induction alike with
  | nil => exact .inl ⟨rfl, rfl⟩
  | @cons first second rest rest' same alike ih =>
    cases named : BlockLane.name first == name with
    | true =>
      have named' : (BlockLane.name second == name) = true := same.name ▸ named
      refine .inr ⟨first, second, by simp [named], by simp [named'], same, ?_⟩
      rw [replaceFirst, replaceFirst, if_pos named, if_pos named']
      exact .cons same.select.2 alike
    | false =>
      have named' : (BlockLane.name second == name) = false := same.name ▸ named
      simp only [List.find?_cons, replaceFirst, named, named']
      rcases ih with none | ⟨lane, other, found, found', like, replaced⟩
      · exact .inl none
      · exact .inr ⟨lane, other, found, found', like, .cons same replaced⟩

namespace Alike

theorem contains (alike : registry.Alike other) (digest : Digest) :
    registry.contains digest = other.contains digest := by
  obtain ⟨lanes⟩ := registry
  obtain ⟨others⟩ := other
  change List.Forall₂ StandardLane.Alike lanes others at alike
  simp only [Registry.contains]
  induction alike with
  | nil => rfl
  | cons first alike ih => rw [List.any_cons, List.any_cons, first.contains, ih]

theorem insert (alike : registry.Alike other) (state : C) (sealedTx : SealedTx T) :
    Agrees Alike (registry.insert state sealedTx) (other.insert state sealedTx) :=
  (alike_insertFirst alike).map fun _ _ changed => changed

theorem remove (alike : registry.Alike other) (digest : Digest) :
    Agrees Alike (registry.remove digest) (other.remove digest) :=
  (alike_removeFirst alike).map fun _ _ changed => changed

theorem removeCommitted (alike : registry.Alike other) (txs : List (SealedTx T)) :
    (registry.removeCommitted txs).1 = (other.removeCommitted txs).1 ∧
      (registry.removeCommitted txs).2.Alike (other.removeCommitted txs).2 := by
  induction txs generalizing registry other with
  | nil => exact ⟨rfl, alike⟩
  | cons sealedTx rest ih =>
    have agrees := alike.remove sealedTx.digest
    rw [Registry.removeCommitted, Registry.removeCommitted]
    revert agrees
    generalize registry.remove sealedTx.digest = first
    generalize other.remove sealedTx.digest = second
    rintro (smaller | cause)
    · obtain ⟨counts, after⟩ := ih smaller
      exact ⟨congrArg (· + 1) counts, after⟩
    · exact ih alike

theorem select (alike : registry.Alike other) :
    registry.lanes.map (fun lane => (BlockLane.select lane).1) =
        other.lanes.map (fun lane => (BlockLane.select lane).1) ∧
      registry.select.2.Alike other.select.2 := by
  obtain ⟨lanes⟩ := registry
  obtain ⟨others⟩ := other
  change List.Forall₂ StandardLane.Alike lanes others at alike
  simp only [Alike, Registry.select, List.map_map]
  induction alike with
  | nil => exact ⟨rfl, .nil⟩
  | cons first alike ih =>
    obtain ⟨selected, after⟩ := first.select
    exact ⟨congrArg₂ List.cons selected ih.1, .cons after ih.2⟩

theorem build (alike : registry.Alike other) (state : C) (limit : Nat) :
    Attempt.Alike Alike (registry.build state limit) (other.build state limit) := by
  have attempts := Chain.alike_buildUpTo registry.lanes.length alike (.empty limit) state
  rw [Registry.build, Registry.build, Chain.build, Chain.build, ← alike.length_eq]
  exact ⟨attempts.result, attempts.lanes, attempts.state⟩

theorem propose (alike : registry.Alike other) (state : C) (limit : Nat) :
    (registry.propose state limit).1 = (other.propose state limit).1 ∧
      (registry.propose state limit).2.1.Alike (other.propose state limit).2.1 := by
  have attempts := alike.build state limit
  unfold Registry.propose
  dsimp only
  rw [← attempts.result]
  split
  · exact ⟨rfl, attempts.lanes⟩
  · exact ⟨rfl, attempts.lanes⟩

end Alike

end Registry

namespace Admission

variable {registry other : Registry (StandardLane C T)}

theorem alike_topPrice (rules : Admission C T) (alike : registry.Alike other) (state : C)
    (digest : Digest) :
    (rules.topPrice registry state digest).1 = (rules.topPrice other state digest).1 ∧
      (rules.topPrice registry state digest).2.Alike (rules.topPrice other state digest).2 := by
  unfold topPrice
  split
  · unfold Registry.lane?
    rcases Registry.alike_replaceFirst_select AuctionLane.name alike with
      ⟨none, none'⟩ | ⟨lane, lane', found, found', like, replaced⟩
    · rw [none, none']
      exact ⟨rfl, alike⟩
    · rw [found, found']
      dsimp only
      rw [like.select.1]
      exact ⟨rfl, replaced⟩
  · exact ⟨rfl, alike⟩

theorem alike_screen (rules : Admission C T) (alike : registry.Alike other) (state : C)
    (sealedTx : SealedTx T) :
    (rules.screen registry state sealedTx).1 = (rules.screen other state sealedTx).1 ∧
      (rules.screen registry state sealedTx).2.Alike (rules.screen other state sealedTx).2 := by
  unfold screen
  split
  · exact ⟨rfl, alike⟩
  · exact ⟨rfl, alike⟩
  · obtain ⟨price, looked⟩ := alike_topPrice rules alike state sealedTx.digest
    dsimp only
    rw [price]
    exact ⟨rfl, looked⟩

theorem alike_enter (alike : registry.Alike other) :
    (enter registry sealedTx state).1 = (enter other sealedTx state).1 ∧
      (enter registry sealedTx state).2.Alike (enter other sealedTx state).2 := by
  have agrees := alike.insert state sealedTx
  unfold enter
  revert agrees
  generalize registry.insert state sealedTx = first
  generalize other.insert state sealedTx = second
  rintro (filled | cause)
  · exact ⟨rfl, filled⟩
  · exact ⟨rfl, alike⟩

theorem alike_submit (rules : Admission C T) (alike : registry.Alike other) (state : C)
    (bytes : Bytes) :
    (rules.submit registry state bytes).1 = (rules.submit other state bytes).1 ∧
      (rules.submit registry state bytes).2.Alike (rules.submit other state bytes).2 := by
  unfold submit
  split
  · exact ⟨rfl, alike⟩
  · rename_i sealedTx _
    rw [alike.contains]
    split
    · exact ⟨rfl, alike⟩
    · have screened := alike_screen rules alike state sealedTx
      revert screened
      rcases rules.screen registry state sealedTx with ⟨answer, middle⟩
      rcases rules.screen other state sealedTx with ⟨answer', middle'⟩
      rintro ⟨rfl, screened⟩
      cases answer with
      | error cause => exact ⟨rfl, screened⟩
      | ok next => exact alike_enter screened

end Admission

end BlockBuilder
