import BlockBuilder.Ledger.State
import BlockBuilder.Ledger.Wire
import BlockBuilder.Proofs.Registry.Housing

namespace BlockBuilder

variable {C T : Type} [Transaction T] [BlockState C]

def StandardLane.IgnoresState (lane : StandardLane C T) : Prop :=
  ∀ state other tx, lane.accepts state tx = lane.accepts other tx

omit [BlockState C] in
theorem findIdx?_accepts_eq_of_ignores {lanes : List (StandardLane C T)}
    (ignores : ∀ lane ∈ lanes, lane.IgnoresState) (state other : C) (tx : T) :
    (lanes.findIdx? fun lane => lane.accepts state tx) =
      lanes.findIdx? fun lane => lane.accepts other tx := by
  have same : lanes.map (fun lane => lane.accepts state tx) =
      lanes.map fun lane => lane.accepts other tx :=
    List.map_congr_left fun lane mem => ignores lane mem ..
  have search := congrArg (List.findIdx? id) same
  rwa [List.findIdx?_map, List.findIdx?_map, Function.id_comp, Function.id_comp] at search

def DigestsFix (txs : List (SealedTx T)) : Prop :=
  ∀ first ∈ txs, ∀ second ∈ txs, first.digest = second.digest → first.tx = second.tx

instance [DecidableEq T] (txs : List (SealedTx T)) : Decidable (DigestsFix txs) :=
  inferInstanceAs (Decidable (∀ first ∈ txs, ∀ second ∈ txs, _ → _))

namespace Registry

inductive Call (C T : Type) where
  | insert (state : C) (sealedTx : SealedTx T)
  | remove (digest : Digest)
  | removeCommitted (txs : List (SealedTx T))
  | select
  | build (state : C) (limit : Nat)

def perform (registry : Registry (StandardLane C T)) : Call C T → Registry (StandardLane C T)
  | .insert state sealedTx => (registry.insert state sealedTx).toOption.getD registry
  | .remove digest => (registry.remove digest).toOption.getD registry
  | .removeCommitted txs => (registry.removeCommitted txs).2
  | .select => registry.select.2
  | .build state limit => (registry.build state limit).lanes

def run (registry : Registry (StandardLane C T)) (calls : List (Call C T)) :
    Registry (StandardLane C T) :=
  calls.foldl perform registry

def newcomers (calls : List (Call C T)) : List (SealedTx T) :=
  calls.filterMap fun
    | .insert _ sealedTx => some sealedTx
    | _ => none

variable {start registry after : Registry (StandardLane C T)}

theorem evolves_perform (registry : Registry (StandardLane C T)) (call : Call C T) :
    Evolves (fun position _ inserted => inserted ∈ newcomers [call] ∧
        ∃ state, registry.lanes.findIdx? (fun lane => lane.accepts state inserted.tx) = some position)
      registry.lanes (registry.perform call).lanes := by
  cases call with
  | insert state sealedTx =>
    rw [perform]
    cases done : registry.insert state sealedTx with
    | error cause => exact .refl
    | ok changed =>
      refine (evolves_insert done).mono ?_
      rintro position priority inserted ⟨rfl, routed⟩
      exact ⟨List.mem_singleton_self _, state, routed.first⟩
  | remove digest =>
    rw [perform]
    cases done : registry.remove digest with
    | error cause => exact .refl
    | ok changed => exact evolves_remove done
  | removeCommitted txs => exact evolves_removeCommitted registry txs
  | select => exact evolves_select registry
  | build state limit => exact evolves_build registry state limit

theorem evolves_run (registry : Registry (StandardLane C T)) (calls : List (Call C T)) :
    Evolves (fun position _ inserted => inserted ∈ newcomers calls ∧
        ∃ state, registry.lanes.findIdx? (fun lane => lane.accepts state inserted.tx) = some position)
      registry.lanes (registry.run calls).lanes := by
  induction calls generalizing registry with
  | nil => exact .refl
  | cons call rest ih =>
    have step := evolves_perform registry call
    refine .trans (step.mono ?_) ((ih (registry.perform call)).mono ?_)
    · rintro position priority inserted ⟨brought, routed⟩
      have split : newcomers (call :: rest) = newcomers [call] ++ newcomers rest :=
        List.filterMap_append (l := [call])
      exact ⟨split ▸ List.mem_append_left _ brought, routed⟩
    · rintro position priority inserted ⟨brought, state, routed⟩
      have split : newcomers (call :: rest) = newcomers [call] ++ newcomers rest :=
        List.filterMap_append (l := [call])
      rw [step.findIdx?_accepts] at routed
      exact ⟨split ▸ List.mem_append_right _ brought, state, routed⟩

theorem run_remove {calls : List (Call C T)} {digest : Digest}
    (done : (start.run calls).remove digest = .ok after) :
    start.run (calls ++ [.remove digest]) = after ∧
      newcomers (calls ++ [.remove digest]) = newcomers calls := by
  refine ⟨?_, by simp [newcomers]⟩
  rw [run, List.foldl_append]
  change perform (start.run calls) (.remove digest) = after
  rw [perform, done]
  rfl

/-- Every pending transaction has one owner, the first lane that accepts it; and so the lanes count,
look up and take out as one pool would. -/
structure Owned (registry : Registry (StandardLane C T)) : Prop where
  owner {sealedTx : SealedTx T} (holds : registry.Holds sealedTx) (state : C) :
    ∃ position, registry.lanes.findIdx? (fun lane => lane.accepts state sealedTx.tx) = some position ∧
      ∀ other lane, registry.lanes[other]? = some lane → (lane.pool.Holds sealedTx ↔ other = position)
  counted : registry.size =
    {digest | ∃ sealedTx, registry.Holds sealedTx ∧ sealedTx.digest = digest}.ncard
  selected : registry.size = registry.select.1.length
  known (digest : Digest) : registry.contains digest = true ↔
    ∃ sealedTx, registry.Holds sealedTx ∧ sealedTx.digest = digest
  knownOnce (digest : Digest) : registry.contains digest = true ↔
    ∃! position : Nat, ∃ lane, registry.lanes[position]? = some lane ∧
      BlockLane.contains lane digest = true
  remove (digest : Digest) :
    match registry.remove digest with
    | .ok after => registry.contains digest = true ∧
      ∀ other, after.Holds other ↔ registry.Holds other ∧ other.digest ≠ digest
    | .error cause => registry.contains digest = false ∧ cause = .pool (.notFound digest)
  removeCommitted (txs : List (SealedTx T)) : (registry.removeCommitted txs).1 =
    ((txs.map SealedTx.digest).toFinset.filter fun digest => registry.contains digest).card

section Runs

variable (blank : ∀ lane ∈ start.lanes, ∃ policy, lane.pool = .empty policy)
  (ignores : ∀ lane ∈ start.lanes, lane.IgnoresState)
include blank ignores

omit ignores in
theorem held_run {calls : List (Call C T)} {position : Nat} {lane : StandardLane C T}
    (found : (start.run calls).lanes[position]? = some lane) {sealedTx : SealedTx T}
    (holds : lane.pool.Holds sealedTx) : sealedTx ∈ newcomers calls ∧ ∃ state,
      start.lanes.findIdx? (fun lane => lane.accepts state sealedTx.tx) = some position := by
  obtain ⟨slot, priority, there⟩ := holds.exists_held
  exact ((evolves_run start calls).stocked blank position found).held there

theorem housed_run {calls : List (Call C T)} (distinct : DigestsFix (newcomers calls)) :
    (start.run calls).Housed := by
  have evolves := evolves_run start calls
  have brought {sealedTx : SealedTx T} (holds : (start.run calls).Holds sealedTx) :
      sealedTx ∈ newcomers calls ∧ Nonempty C := by
    obtain ⟨lane, mem, holds⟩ := holds
    obtain ⟨position, found⟩ := List.mem_iff_getElem?.mp mem
    obtain ⟨brought, state, -⟩ := held_run blank found holds
    exact ⟨brought, ⟨state⟩⟩
  refine ⟨fun {lane} mem => ?_, fun {lane} mem => ?_, fun holds => (brought holds).2, ?_, ?_⟩
  · obtain ⟨position, found⟩ := List.mem_iff_getElem?.mp mem
    exact (evolves.stocked blank position found).aligned
  · refine evolves.indexes blank (fun _ _ first _ second own other same => ?_) mem
    rw [SealedTx.slot?, SealedTx.slot?, distinct first own.1 second other.1 same]
  · intro position lane found sealedTx holds state
    obtain ⟨-, routing, routed⟩ := held_run blank found holds
    rw [evolves.findIdx?_accepts, findIdx?_accepts_eq_of_ignores ignores state routing, routed]
  · intro first second holds holds' same
    exact distinct first (brought holds).1 second (brought holds').1 same

theorem removeCommitted_run {calls : List (Call C T)}
    (distinct : DigestsFix (newcomers calls)) (txs : List (SealedTx T)) :
    ((start.run calls).removeCommitted txs).1 =
      ((txs.map SealedTx.digest).toFinset.filter fun digest =>
        (start.run calls).contains digest).card := by
  induction txs generalizing calls with
  | nil => rfl
  | cons sealedTx rest ih =>
    have housed := housed_run blank ignores distinct
    rw [removeCommitted, List.map_cons, List.toFinset_cons, Finset.filter_insert]
    rcases housed.remove_cases sealedTx.digest with ⟨absent, refused⟩ | ⟨present, after, removed, left⟩
    · rw [refused, if_neg (by simp [absent])]
      exact ih distinct
    · obtain ⟨reached, same⟩ := run_remove removed
      rw [← same] at distinct
      have counted := ih distinct
      have known := housed.contains_iff_of_left (reached ▸ housed_run blank ignores distinct) left
      rw [reached] at counted
      have others : Insert.insert sealedTx.digest
            ((rest.map SealedTx.digest).toFinset.filter fun digest => (start.run calls).contains digest) =
          Insert.insert sealedTx.digest ((rest.map SealedTx.digest).toFinset.filter fun digest =>
            after.contains digest) := by
        ext digest
        by_cases own : digest = sealedTx.digest
        · simp [own]
        · simp [own, known]
      have gone : sealedTx.digest ∉ (rest.map SealedTx.digest).toFinset.filter fun digest =>
          after.contains digest := by
        simp [known]
      rw [removed, if_pos present, others, Finset.card_insert_of_notMem gone, ← counted]

/-- Lanes that start with nothing and accept the same in every state, whatever their names and shares,
never share a transaction. -/
theorem owned_run (calls : List (Call C T)) (distinct : DigestsFix (newcomers calls)) :
    (start.run calls).Owned := by
  have housed := housed_run blank ignores distinct
  refine ⟨fun {sealedTx} holds state => ?_, housed.ncard_digests.symm, housed.length_select.symm,
    housed.contains_iff_exists_holds, housed.contains_iff_existsUnique, fun digest => ?_,
    removeCommitted_run blank ignores distinct⟩
  · obtain ⟨lane, mem, held⟩ := holds
    obtain ⟨position, found⟩ := List.mem_iff_getElem?.mp mem
    refine ⟨position, housed.first found held state, fun other rival found' => ⟨fun held' => ?_, ?_⟩⟩
    · exact housed.eq_position found' held' found held rfl
    · rintro rfl
      cases found.symm.trans found'
      exact held
  · rcases housed.remove_cases digest with ⟨absent, refused⟩ | ⟨present, after, removed, left⟩
    · rw [refused]
      exact ⟨absent, rfl⟩
    · rw [removed]
      exact ⟨present, left⟩

end Runs

open Ledger in
theorem owned_run_of_overlap :
    let settings : LaneSettings State Tx := ⟨Wire.codec, none, {}⟩
    let lanes : List (StandardLane State Tx) :=
      [.general { name := "sent", settings, pool := settings.emptyPool,
                  exclusions := [fun _ tx => Transaction.isBid tx] },
        .general { name := "rest", settings, pool := settings.emptyPool }]
    let state := State.empty 1 .check 1000
    let first := SealedTx.ofParts (Tx.transfer (.ofIndex 1) 0 0) [1]
    let bid := SealedTx.ofParts (Tx.bid (.ofIndex 1) 0 100 []) [2]
    let replacement := SealedTx.ofParts (Tx.transfer (.ofIndex 1) 0 5) [3]
    let calls : List (Call State Tx) :=
      [.insert state first, .insert state bid, .select, .build state 100, .insert state replacement,
        .remove first.digest, .removeCommitted [bid]]
    Registry.ofLanes lanes = .ok ⟨lanes⟩ ∧ DigestsFix (newcomers calls) ∧ Owned (run ⟨lanes⟩ calls) := by
  intro settings lanes state first bid replacement calls
  have distinct : DigestsFix (newcomers calls) := by decide +kernel
  have names : checkLanes [] lanes = .ok () := rfl
  have shares : Share.fitsBlock (lanes.map BlockLane.share) = true := by decide
  have accepted : ofLanes lanes = .ok ⟨lanes⟩ := by
    rw [ofLanes, names, shares]
    rfl
  refine ⟨accepted, distinct, owned_run ?_ ?_ calls distinct⟩
  · intro lane mem
    rcases List.mem_pair.mp mem with rfl | rfl <;> exact ⟨_, rfl⟩
  · intro lane mem
    rcases List.mem_pair.mp mem with rfl | rfl <;> exact fun _ _ _ => rfl

end Registry

end BlockBuilder
