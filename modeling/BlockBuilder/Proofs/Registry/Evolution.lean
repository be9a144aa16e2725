import BlockBuilder.Admission
import BlockBuilder.Proposal
import BlockBuilder.Proofs.Lane.Evolution

namespace BlockBuilder

variable {C T : Type} [Transaction T] [BlockState C] {state : C} {sealedTx inserted : SealedTx T}
  {digest : Digest} {position : Nat} {priority : UInt64}
  {allowed : Nat → UInt64 → SealedTx T → Prop} {lane : StandardLane C T}
  {lanes after : List (StandardLane C T)}

/-- The transaction goes to the first lane that accepts it, which is in this position and gives it
this priority. -/
structure Routed (lanes : List (StandardLane C T)) (state : C) (sealedTx : SealedTx T)
    (position : Nat) (priority : UInt64) : Prop where
  first : lanes.findIdx? (fun lane => lane.accepts state sealedTx.tx) = some position
  priority : lanes[position]?.map (fun lane => lane.priorityOf state sealedTx.tx) = some priority

omit [BlockState C] in
theorem findIdx?_accepts_map_bare (lanes : List (StandardLane C T)) (state : C) (tx : T) :
    (lanes.map StandardLane.bare).findIdx? (fun lane => lane.accepts state tx) =
      lanes.findIdx? fun lane => lane.accepts state tx := by
  simp [List.findIdx?_map, Function.comp_def]

theorem routed_map_bare_iff :
    Routed (lanes.map StandardLane.bare) state sealedTx position priority ↔
      Routed lanes state sealedTx position priority := by
  have first := findIdx?_accepts_map_bare lanes state sealedTx.tx
  have priorities : (lanes.map StandardLane.bare)[position]?.map
      (fun lane => lane.priorityOf state sealedTx.tx) =
        lanes[position]?.map fun lane => lane.priorityOf state sealedTx.tx := by
    simp [Function.comp_def]
  constructor
  · rintro ⟨here, under⟩
    exact ⟨first ▸ here, priorities ▸ under⟩
  · rintro ⟨here, under⟩
    exact ⟨first ▸ here, priorities ▸ under⟩

theorem Evolves.routed_iff (evolves : Evolves allowed lanes after) :
    Routed after state sealedTx position priority ↔ Routed lanes state sealedTx position priority := by
  rw [← routed_map_bare_iff, evolves.map_bare, routed_map_bare_iff]

omit [BlockState C] in
theorem Evolves.findIdx?_accepts (evolves : Evolves allowed lanes after) (state : C) (tx : T) :
    (after.findIdx? fun lane => lane.accepts state tx) =
      lanes.findIdx? fun lane => lane.accepts state tx := by
  rw [← findIdx?_accepts_map_bare, evolves.map_bare, findIdx?_accepts_map_bare]

namespace Registry

variable {registry changed : Registry (StandardLane C T)}

theorem evolves_insertFirst (done : insertFirst state sealedTx lanes = .ok after) :
    Evolves (fun position priority inserted =>
      inserted = sealedTx ∧ Routed lanes state sealedTx position priority) lanes after := by
  induction lanes generalizing after with
  | nil => cases done
  | cons lane rest ih =>
    rw [insertFirst] at done
    split at done
    · rename_i accepted
      obtain ⟨filled, into, rfl⟩ := map_eq_ok_iff.mp done
      cases StandardLane.insert_eq_run into
      apply Evolves.change
      intro priority inserted mem
      cases List.mem_singleton.mp mem
      have accepted : lane.accepts state sealedTx.tx = true := accepted
      exact ⟨rfl, by simp [List.findIdx?_cons, accepted], rfl⟩
    · rename_i refused
      obtain ⟨others, later, rfl⟩ := map_eq_ok_iff.mp done
      refine ((ih later).mono ?_).keep
      rintro position priority inserted ⟨rfl, first, under⟩
      have refused : lane.accepts state inserted.tx = false := Bool.eq_false_iff.mpr refused
      exact ⟨rfl, by simp [List.findIdx?_cons, refused, first], under⟩

theorem evolves_removeFirst (done : removeFirst digest lanes = .ok after) :
    Evolves allowed lanes after := by
  induction lanes generalizing after allowed with
  | nil => cases done
  | cons lane rest ih =>
    rw [removeFirst] at done
    split at done
    · obtain ⟨left, out, rfl⟩ := map_eq_ok_iff.mp done
      cases StandardLane.remove_eq_run out
      exact .change (by simp)
    · obtain ⟨others, later, rfl⟩ := map_eq_ok_iff.mp done
      exact (ih later).keep

theorem evolves_replaceFirst_select {name : String}
    (found : lanes.find? (fun candidate => BlockLane.name candidate == name) = some lane) :
    Evolves allowed lanes (replaceFirst name (BlockLane.select lane).2 lanes) := by
  induction lanes generalizing allowed with
  | nil => cases found
  | cons first rest ih =>
    rw [List.find?_cons] at found
    rw [replaceFirst]
    split at found
    · rename_i named
      cases found
      rw [if_pos named]
      change Evolves allowed (lane :: rest) (lane.select.2 :: rest)
      rw [StandardLane.select_eq_run]
      exact .change (by simp)
    · rename_i other
      rw [if_neg (by simp [other])]
      exact (ih found).keep

theorem evolves_insert (done : registry.insert state sealedTx = .ok changed) :
    Evolves (fun position priority inserted =>
      inserted = sealedTx ∧ Routed registry.lanes state sealedTx position priority)
      registry.lanes changed.lanes := by
  obtain ⟨lanes, inserted, rfl⟩ := map_eq_ok_iff.mp done
  exact evolves_insertFirst inserted

theorem evolves_remove (done : registry.remove digest = .ok changed) :
    Evolves allowed registry.lanes changed.lanes := by
  obtain ⟨lanes, removed, rfl⟩ := map_eq_ok_iff.mp done
  exact evolves_removeFirst removed

theorem evolves_removeCommitted (registry : Registry (StandardLane C T)) (txs : List (SealedTx T)) :
    Evolves allowed registry.lanes (registry.removeCommitted txs).2.lanes := by
  induction txs generalizing registry with
  | nil => exact .refl
  | cons sealedTx rest ih =>
    rw [removeCommitted]
    split
    · rename_i smaller removed
      exact (evolves_remove removed).trans (ih smaller)
    · exact ih registry

theorem evolves_select (registry : Registry (StandardLane C T)) :
    Evolves allowed registry.lanes registry.select.2.lanes := by
  refine ⟨fun _ => [.select], by simp, ?_⟩
  apply List.ext_getElem?
  intro position
  simp only [select, List.map_map, List.getElem?_map, List.getElem?_mapIdx]
  cases registry.lanes[position]? with
  | none => rfl
  | some lane => exact congrArg some lane.select_eq_run

theorem evolves_build (registry : Registry (StandardLane C T)) (state : C) (limit : Nat) :
    Evolves allowed registry.lanes (registry.build state limit).lanes.lanes :=
  Chain.evolves_buildUpTo ..

theorem evolves_propose (registry : Registry (StandardLane C T)) (state : C) (limit : Nat) :
    Evolves allowed registry.lanes (registry.propose state limit).2.1.lanes := by
  unfold propose
  dsimp only
  split <;> exact evolves_build registry state limit

end Registry

namespace Admission

variable {rules : Admission C T} {registry : Registry (StandardLane C T)}

theorem evolves_topPrice :
    Evolves allowed registry.lanes (rules.topPrice registry state digest).2.lanes := by
  unfold topPrice
  split
  · split
    · exact .refl
    · rename_i lane found
      unfold Registry.lane? at found
      split at found
      · rename_i first
        cases found
        exact Registry.evolves_replaceFirst_select first
      · cases found
  · exact .refl

theorem evolves_screen :
    Evolves allowed registry.lanes (rules.screen registry state sealedTx).2.lanes := by
  unfold screen
  split
  · exact .refl
  · exact .refl
  · exact evolves_topPrice

theorem evolves_submit (rules : Admission C T) (registry : Registry (StandardLane C T)) (state : C)
    (bytes : Bytes) :
    Evolves (fun position priority inserted =>
      SealedTx.decode rules.codec bytes = .ok inserted ∧ ∃ next,
        (rules.screen registry state inserted).1 = .ok next ∧
          Routed registry.lanes next inserted position priority)
      registry.lanes (rules.submit registry state bytes).2.lanes := by
  unfold submit
  split
  · exact .refl
  · rename_i sealedTx read
    split
    · exact .refl
    · have looked (allowed : Nat → UInt64 → SealedTx T → Prop) :
          Evolves allowed registry.lanes (rules.screen registry state sealedTx).2.lanes :=
        evolves_screen
      split
      · rename_i screened
        rw [screened] at looked
        exact looked _
      · rename_i next middle screened
        rw [screened] at looked
        unfold enter
        split
        · exact looked _
        · rename_i done
          refine (looked _).trans ((Registry.evolves_insert done).mono ?_)
          rintro position priority inserted ⟨rfl, routed⟩
          exact ⟨read, next, congrArg Prod.fst screened, (looked fun _ _ _ => True).routed_iff.mp routed⟩

end Admission

end BlockBuilder
