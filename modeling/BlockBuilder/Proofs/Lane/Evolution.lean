import BlockBuilder.Lane.Chain
import BlockBuilder.Proofs.Lane.Filling
import BlockBuilder.Proofs.Pool.Origin

namespace BlockBuilder

variable {C T : Type} [Transaction T]

/-- Every lane after operations on its pool, which insert only what is allowed in its position. -/
def Evolves (allowed : Nat → UInt64 → SealedTx T → Prop) (lanes after : List (StandardLane C T)) :
    Prop :=
  ∃ operations : Nat → List (Pool.Operation T UInt64),
    (∀ position priority sealedTx,
      .insert priority sealedTx ∈ operations position → allowed position priority sealedTx) ∧
    after = lanes.mapIdx fun position lane => lane.run (operations position)

namespace Evolves

variable {allowed : Nat → UInt64 → SealedTx T → Prop} {lane : StandardLane C T}
  {lanes middle after : List (StandardLane C T)}

theorem refl : Evolves allowed lanes lanes := by
  refine ⟨fun _ => [], by simp, ?_⟩
  simp only [StandardLane.run_nil]
  apply List.ext_getElem?
  simp

theorem trans (first : Evolves allowed lanes middle) (second : Evolves allowed middle after) :
    Evolves allowed lanes after := by
  obtain ⟨operations, passes, rfl⟩ := first
  obtain ⟨operations', passes', rfl⟩ := second
  refine ⟨fun position => operations position ++ operations' position, ?_, ?_⟩
  · intro position priority sealedTx mem
    rcases List.mem_append.mp mem with before | later
    · exact passes _ _ _ before
    · exact passes' _ _ _ later
  · rw [List.mapIdx_mapIdx]
    simp only [Function.comp_def, StandardLane.run_run]

theorem mono {wider : Nat → UInt64 → SealedTx T → Prop} (evolves : Evolves allowed lanes after)
    (weaker : ∀ position priority sealedTx,
      allowed position priority sealedTx → wider position priority sealedTx) :
    Evolves wider lanes after := by
  obtain ⟨operations, passes, same⟩ := evolves
  exact ⟨operations, fun _ _ _ mem => weaker _ _ _ (passes _ _ _ mem), same⟩

theorem cons {operations : List (Pool.Operation T UInt64)}
    (passes : ∀ priority sealedTx, .insert priority sealedTx ∈ operations → allowed 0 priority sealedTx)
    (rest : Evolves (fun position => allowed (position + 1)) lanes after) :
    Evolves allowed (lane :: lanes) (lane.run operations :: after) := by
  obtain ⟨later, passes', rfl⟩ := rest
  refine ⟨fun position => position.casesOn operations later, ?_, ?_⟩
  · intro position priority sealedTx mem
    cases position with
    | zero => exact passes _ _ mem
    | succ position => exact passes' _ _ _ mem
  · rw [List.mapIdx_cons]
    rfl

theorem keep (rest : Evolves (fun position => allowed (position + 1)) lanes after) :
    Evolves allowed (lane :: lanes) (lane :: after) := by
  have unchanged : Evolves allowed (lane :: lanes) (lane.run [] :: after) := rest.cons (by simp)
  rwa [StandardLane.run_nil] at unchanged

theorem change {operations : List (Pool.Operation T UInt64)}
    (passes : ∀ priority sealedTx, .insert priority sealedTx ∈ operations → allowed 0 priority sealedTx) :
    Evolves allowed (lane :: lanes) (lane.run operations :: lanes) :=
  cons passes .refl

theorem getElem? (evolves : Evolves allowed lanes after) {position : Nat}
    (found : after[position]? = some lane) :
    ∃ before operations, lanes[position]? = some before ∧ lane = before.run operations ∧
      ∀ priority sealedTx, .insert priority sealedTx ∈ operations →
        allowed position priority sealedTx := by
  obtain ⟨operations, passes, rfl⟩ := evolves
  rw [List.getElem?_mapIdx, Option.map_eq_some_iff] at found
  obtain ⟨before, found, rfl⟩ := found
  exact ⟨before, operations position, found, rfl, passes position⟩

theorem map_bare (evolves : Evolves allowed lanes after) :
    after.map StandardLane.bare = lanes.map StandardLane.bare := by
  obtain ⟨operations, -, rfl⟩ := evolves
  apply List.ext_getElem?
  intro position
  cases found : lanes[position]? <;> simp [found]

theorem stocked (evolves : Evolves allowed lanes after)
    (blank : ∀ lane ∈ lanes, ∃ policy, lane.pool = .empty policy) (position : Nat)
    (found : after[position]? = some lane) : lane.pool.Stocked (allowed position) := by
  obtain ⟨before, operations, there, rfl, passes⟩ := evolves.getElem? found
  obtain ⟨policy, empty⟩ := blank before (List.mem_of_getElem? there)
  rw [StandardLane.pool_run, empty]
  exact Pool.stocked_run policy passes

theorem indexes (evolves : Evolves allowed lanes after)
    (blank : ∀ lane ∈ lanes, ∃ policy, lane.pool = .empty policy)
    (fixed : ∀ position priority first priority' second, allowed position priority first →
      allowed position priority' second → first.digest = second.digest → first.slot? = second.slot?)
    (mem : lane ∈ after) : lane.pool.Indexes lane.pool.entryAt := by
  obtain ⟨position, found⟩ := List.mem_iff_getElem?.mp mem
  obtain ⟨before, operations, there, rfl, passes⟩ := evolves.getElem? found
  obtain ⟨policy, empty⟩ := blank before (List.mem_of_getElem? there)
  have inserted {sealedTx : SealedTx T} (mem : sealedTx ∈ Pool.newcomers operations) :
      ∃ priority, allowed position priority sealedTx := by
    obtain ⟨operation, performed, same⟩ := List.mem_filterMap.mp mem
    cases operation with
    | insert priority inserted =>
      cases same
      exact ⟨priority, passes priority sealedTx performed⟩
    | _ => cases same
  rw [StandardLane.pool_run, empty]
  refine Pool.indexes_run policy fun first mem second mem' => ?_
  obtain ⟨priority, own⟩ := inserted mem
  obtain ⟨priority', other⟩ := inserted mem'
  exact fixed position priority first priority' second own other

end Evolves

namespace Chain

variable [BlockState C]

theorem evolves_buildUpTo {allowed : Nat → UInt64 → SealedTx T → Prop} (count : Nat)
    (lanes : List (StandardLane C T)) (draft : Draft) (state : C) :
    Evolves allowed lanes (buildUpTo count lanes draft state).lanes := by
  induction count generalizing allowed lanes draft state with
  | zero => exact .refl
  | succ count ih =>
    cases lanes with
    | nil => exact .refl
    | cons lane rest =>
      obtain ⟨dead, own⟩ := lane.contribute_eq_run draft (draft.allowance (BlockLane.share lane)) state
      have passes (priority : UInt64) (sealedTx : SealedTx T)
          (mem : .insert priority sealedTx ∈ Pool.Operation.settle :: dead.map .remove) :
          allowed 0 priority sealedTx := by
        simp at mem
      change (BlockLane.contribute lane draft (draft.allowance (BlockLane.share lane)) state).lanes =
        lane.run _ at own
      rw [buildUpTo]
      dsimp only
      rw [own]
      split
      · exact .cons passes (ih _ _ _)
      · split
        · exact .cons passes (ih _ _ _)
        · exact .cons passes ((ih _ _ _).trans (ih _ _ _))

end Chain

end BlockBuilder
