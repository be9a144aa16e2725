import Mathlib.Data.List.Forall2
import Mathlib.Data.Set.List
import BlockBuilder.Lane.Standard
import BlockBuilder.Registry
import BlockBuilder.Proofs.Lane.Outcome
import BlockBuilder.Proofs.Pool.Runs

namespace BlockBuilder

variable {C T : Type} {state : C} {sealedTx : SealedTx T} {digest : Digest}

theorem pool_result_eq_ok_iff {L : Type} {result : Except PoolError (Pool T UInt64)}
    {change : Pool T UInt64 → L} {changed : L} :
    (match result with
      | .ok pool => .ok (change pool)
      | .error cause => .error (.pool cause) : Except LaneError L) = .ok changed ↔
      ∃ pool, result = .ok pool ∧ change pool = changed := by
  cases result with
  | error cause => simp
  | ok pool => simp

namespace StandardLane

variable {lane after : StandardLane C T}

def bare (lane : StandardLane C T) : StandardLane C T := lane.withPool (.empty {})

@[simp] theorem bare_withPool (pool : Pool T UInt64) : (lane.withPool pool).bare = lane.bare := by
  cases lane <;> rfl

@[simp] theorem settings_bare : lane.bare.settings = lane.settings := by
  cases lane <;> rfl

@[simp] theorem pool_withPool (pool : Pool T UInt64) : (lane.withPool pool).pool = pool := by
  cases lane <;> rfl

theorem forall_mem_iff_of_bare {lanes others : List (StandardLane C T)} {kept : StandardLane C T → Prop}
    (same : lanes.map bare = others.map bare) (agrees : ∀ lane, kept lane.bare ↔ kept lane) :
    (∀ lane ∈ lanes, kept lane) ↔ ∀ lane ∈ others, kept lane := by
  have emptied (lanes : List (StandardLane C T)) :
      (∀ lane ∈ lanes.map bare, kept lane) ↔ ∀ lane ∈ lanes, kept lane := by
    simp only [List.forall_mem_map, agrees]
  rw [← emptied, same, emptied]

theorem exists_general_of_bare {lanes : List (StandardLane C T)} {generals : List (GeneralLane C T)}
    (same : lanes.map bare = (generals.map StandardLane.general).map bare) :
    ∃ filled : List (GeneralLane C T), lanes = filled.map .general := by
  have kind (lane : StandardLane C T) :
      lane.bare ∈ Set.range StandardLane.general ↔ lane ∈ Set.range StandardLane.general := by
    cases lane <;> simp [bare, withPool]
  have listed : lanes ∈ Set.range (List.map StandardLane.general) := by
    rw [Set.range_list_map]
    exact (forall_mem_iff_of_bare same kind).mpr (by simp)
  obtain ⟨filled, rfl⟩ := listed
  exact ⟨filled, rfl⟩

structure FilledWith (kept : SealedTx T → Prop) (blank lane : StandardLane C T) : Prop where
  bare : lane.bare = blank
  kept : ∀ sealedTx, lane.pool.Holds sealedTx → kept sealedTx

variable [Transaction T]

def run (lane : StandardLane C T) (operations : List (Pool.Operation T UInt64)) : StandardLane C T :=
  lane.withPool (lane.pool.run operations)

@[simp] theorem pool_run (operations : List (Pool.Operation T UInt64)) :
    (lane.run operations).pool = lane.pool.run operations :=
  pool_withPool _

@[simp] theorem bare_run (operations : List (Pool.Operation T UInt64)) :
    (lane.run operations).bare = lane.bare :=
  bare_withPool _

theorem run_nil : lane.run [] = lane := by
  cases lane <;> rfl

theorem run_run (first second : List (Pool.Operation T UInt64)) :
    (lane.run first).run second = lane.run (first ++ second) := by
  simp only [run, pool_withPool, Pool.run_append]
  cases lane <;> rfl

theorem select_eq_run : lane.select.2 = lane.run [.select] := by
  cases lane <;> rfl

omit [Transaction T] in
theorem remove_eq (lane : StandardLane C T) (digest : Digest) :
    lane.remove digest = match lane.pool.remove digest with
      | .ok pool => .ok (lane.withPool pool)
      | .error cause => .error (.pool cause) := by
  cases lane with
  | auction lane =>
    simp only [remove, AuctionLane.remove, pool]
    cases lane.pool.remove digest <;> rfl
  | general lane =>
    simp only [remove, GeneralLane.remove, pool]
    cases lane.pool.remove digest <;> rfl

theorem remove_eq_run (done : lane.remove digest = .ok after) : after = lane.run [.remove digest] := by
  rw [remove_eq] at done
  obtain ⟨pool, removed, rfl⟩ := pool_result_eq_ok_iff.mp done
  simp [run, Pool.run, Pool.perform, removed, Except.toOption]

variable [BlockState C]

def priorityOf (state : C) (tx : T) : StandardLane C T → UInt64
  | .auction _ => AuctionLane.priority tx
  | .general _ => BlockState.priority state

theorem insert_eq (lane : StandardLane C T) (state : C) (sealedTx : SealedTx T) :
    lane.insert state sealedTx =
      match lane.pool.insert (lane.priorityOf state sealedTx.tx) sealedTx with
      | .ok pool => .ok (lane.withPool pool)
      | .error cause => .error (.pool cause) := by
  cases lane with
  | auction lane =>
    simp only [insert, AuctionLane.insert, pool, priorityOf]
    cases lane.pool.insert (AuctionLane.priority sealedTx.tx) sealedTx <;> rfl
  | general lane =>
    simp only [insert, GeneralLane.insert, pool, priorityOf]
    cases lane.pool.insert (BlockState.priority state) sealedTx <;> rfl

theorem insert_eq_run (done : lane.insert state sealedTx = .ok after) :
    after = lane.run [.insert (lane.priorityOf state sealedTx.tx) sealedTx] := by
  rw [insert_eq] at done
  obtain ⟨pool, inserted, rfl⟩ := pool_result_eq_ok_iff.mp done
  simp [run, Pool.run, Pool.perform, inserted, Except.toOption]

omit [BlockState C] in
@[simp] theorem accepts_bare (lane : StandardLane C T) (state : C) (tx : T) :
    lane.bare.accepts state tx = lane.accepts state tx := by
  cases lane <;> rfl

@[simp] theorem priorityOf_bare (lane : StandardLane C T) (state : C) (tx : T) :
    lane.bare.priorityOf state tx = lane.priorityOf state tx := by
  cases lane <;> rfl

theorem contribute_eq_run (lane : StandardLane C T) (draft : Draft) (limit : Nat) (state : C) :
    ∃ dead : List Digest, (lane.contribute draft limit state).lanes =
      lane.run (.settle :: dead.map .remove) := by
  have emptied : ∃ dead, (lane.contribute draft limit state).lanes =
      lane.withPool (lane.pool.settle.removeAll dead) := by
    cases lane <;> exact ⟨_, rfl⟩
  obtain ⟨dead, lanes⟩ := emptied
  refine ⟨dead, ?_⟩
  rw [lanes, Pool.removeAll_eq_run]
  rfl

end StandardLane

def Registry.FilledWith (kept : SealedTx T → Prop) (blanks : List (StandardLane C T))
    (registry : Registry (StandardLane C T)) : Prop :=
  List.Forall₂ (StandardLane.FilledWith kept) blanks registry.lanes

end BlockBuilder
