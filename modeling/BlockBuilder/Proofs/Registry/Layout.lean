import BlockBuilder.Proofs.Builder.Agreement
import BlockBuilder.Proofs.Ledger.WireForm
import BlockBuilder.Proofs.Registry.Arrangement

namespace BlockBuilder

variable {C T : Type}

namespace Registry

theorem nodup_names_of_checkLanes {L : Type} [BlockLane L C T] {lanes : List L} {names : List String}
    (checked : checkLanes names lanes = .ok ()) :
    (lanes.map BlockLane.name).Nodup ∧ ∀ lane ∈ lanes, BlockLane.name lane ∉ names := by
  induction lanes generalizing names with
  | nil => exact ⟨.nil, by simp⟩
  | cons lane rest ih =>
    rw [checkLanes] at checked
    split at checked
    · cases checked
    · rename_i unseen
      split at checked
      · cases checked
      · obtain ⟨distinct, later⟩ := ih checked
        rw [List.contains_iff_mem] at unseen
        refine ⟨List.nodup_cons.mpr ⟨?_, distinct⟩, List.forall_mem_cons.mpr ⟨unseen, ?_⟩⟩
        · intro repeated
          obtain ⟨other, mem, same⟩ := List.mem_map.mp repeated
          exact later other mem (same ▸ List.mem_cons_self)
        · exact fun other mem seen => later other mem (List.mem_cons_of_mem _ seen)

theorem ofLanes_eq_ok_iff {L : Type} [BlockLane L C T] {lanes : List L} {start : Registry L} :
    ofLanes lanes = .ok start ↔ lanes ≠ [] ∧ checkLanes [] lanes = .ok () ∧
      Share.fitsBlock (lanes.map BlockLane.share) = true ∧ start = ⟨lanes⟩ := by
  unfold ofLanes
  simp only [throwIf_eq_ok_iff, throwUnless_eq_ok_iff, bind_eq_ok_iff, List.isEmpty_iff]
  constructor
  · rintro ⟨nonempty, _, checked, fits, same⟩
    cases same
    exact ⟨nonempty, checked, fits, rfl⟩
  · rintro ⟨nonempty, checked, fits, rfl⟩
    exact ⟨nonempty, (), checked, fits, rfl⟩

theorem ofLanes_eq_ok {L : Type} [BlockLane L C T] {lanes : List L} {start : Registry L}
    (made : ofLanes lanes = .ok start) :
    start.lanes = lanes ∧ (lanes.map BlockLane.name).Nodup := by
  obtain ⟨-, checked, -, rfl⟩ := ofLanes_eq_ok_iff.mp made
  exact ⟨rfl, (nodup_names_of_checkLanes checked).1⟩

variable [Transaction T] [BlockState C] {start : Registry (StandardLane C T)}

theorem ignoresState_run (calls : List (Call C T)) (ignores : ∀ lane ∈ start.lanes, lane.IgnoresState) :
    ∀ lane ∈ (start.run calls).lanes, lane.IgnoresState := by
  refine (StandardLane.forall_mem_iff_of_bare (evolves_run start calls).map_bare fun lane => ?_).mpr
    ignores
  simp only [StandardLane.IgnoresState, StandardLane.accepts_bare]

theorem apart_run (calls : List (Call C T)) (blank : ∀ lane ∈ start.lanes, ∃ policy, lane.pool = .empty policy)
    (ignores : ∀ lane ∈ start.lanes, lane.IgnoresState) :
    (start.run calls).lanes.Pairwise fun lane later => ∀ sealedTx, later.pool.Holds sealedTx →
      ∀ state, lane.accepts state sealedTx.tx = false := by
  rw [List.pairwise_iff_getElem]
  intro position other bound bound' before sealedTx holds state
  obtain ⟨-, routing, routed⟩ := held_run blank (List.getElem?_eq_getElem bound') holds
  rw [← (evolves_run start calls).findIdx?_accepts,
    findIdx?_accepts_eq_of_ignores (ignoresState_run calls ignores) routing state,
    List.findIdx?_eq_some_iff_getElem] at routed
  obtain ⟨_, _, refused⟩ := routed
  simpa using refused position before

theorem judge_run (start : Registry (StandardLane C T)) (calls : List (Call C T)) (limit : Nat)
    (txs : List (SealedTx T)) : (start.run calls).judge limit txs = start.judge limit txs := by
  unfold judge
  rw [← Chain.judge_map_bare, (evolves_run start calls).map_bare, Chain.judge_map_bare]

theorem reads_run {calls : List (Call C T)} {codec : Codec T}
    (blank : ∀ lane ∈ start.lanes, ∃ policy, lane.pool = .empty policy)
    (reads : ∀ sealedTx ∈ newcomers calls, codec.Reads sealedTx) {lane : StandardLane C T}
    (mem : lane ∈ (start.run calls).lanes) {sealedTx : SealedTx T} (holds : lane.pool.Holds sealedTx) :
    codec.Reads sealedTx := by
  obtain ⟨position, found⟩ := List.mem_iff_getElem?.mp mem
  exact reads sealedTx (held_run blank found holds).1

variable {lanes : List (GeneralLane C T)}

theorem exists_judge_iff_arranged (made : ofLanes (lanes.map StandardLane.general) = .ok start)
    (ignores : ∀ lane ∈ lanes, (StandardLane.general lane).IgnoresState) {limit : Nat} {state : C}
    {txs : List (SealedTx T)} (small : totalSize txs ≤ maxCount) :
    (∃ draft after, (start.judge limit txs).outcome state = (.ok draft, after)) ↔
      GeneralLane.Arranged lanes limit 0 state txs := by
  obtain ⟨general, names⟩ := ofLanes_eq_ok made
  have ready : Chain.Ready lanes (.empty limit) := by
    refine ⟨?_, fun lane mem => rfl, Nat.zero_le limit⟩
    rwa [List.map_map] at names
  have counted : (Draft.empty limit).total + totalSize txs ≤ maxCount := (Nat.zero_add _).trans_le small
  rw [judge, general]
  simp only [Chain.judge_eq_ok_iff]
  constructor
  · rintro ⟨draft, after, claimed⟩
    exact (Chain.arranged_of_claimed ignores ready counted claimed).1
  · intro arranged
    exact Chain.exists_claimed_of_arranged ignores ready counted arranged
      fun sealedTx mem => Draft.contains_empty

theorem exists_judge_build (general : start.lanes = lanes.map .general)
    (blank : ∀ lane ∈ start.lanes, ∃ policy, lane.pool = .empty policy)
    (ignores : ∀ lane ∈ start.lanes, lane.IgnoresState) {calls : List (Call C T)} {codec : Codec T}
    (reads : ∀ sealedTx ∈ newcomers calls, codec.Reads sealedTx) (state : C) (limit : Nat) :
    ∃ draft txs after, ((start.run calls).build state limit).result = .ok draft ∧
      readBlock codec draft.txs = .ok txs ∧
      ((start.run calls).judge limit txs).outcome state = (.ok draft, after) := by
  have ignoresFilled := ignoresState_run calls ignores
  have apart := apart_run calls blank ignores
  obtain ⟨txs, draft, ok, built⟩ := (start.run calls).built_build state limit
  have bytes : draft.txs = txs.map SealedTx.bytes := by simpa [Draft.empty] using built.bytes
  obtain ⟨filled, lanes⟩ := StandardLane.exists_general_of_bare
    ((evolves_run start calls).map_bare.trans (congrArg _ general))
  have readable : ∀ sealedTx ∈ txs, codec.Reads sealedTx := by
    intro sealedTx mem
    obtain ⟨lane, listed, offers⟩ := built.offers sealedTx mem
    have own := listed
    rw [lanes] at own
    obtain ⟨owner, -, rfl⟩ := List.mem_map.mp own
    exact reads_run blank reads listed offers
  rw [lanes] at built apart ignoresFilled
  obtain ⟨after, claimed, -⟩ := built.exists_claimed (List.forall_mem_map.mp ignoresFilled)
    (fun lane _ => respects_eq _) (List.pairwise_map.mp apart) rfl
  refine ⟨draft, txs, after, ok, ?_, ?_⟩
  · rw [bytes]
    exact readBlock_map_bytes readable
  · rw [judge, lanes]
    exact Chain.judge_eq_ok_iff.mpr claimed

/-- General lanes accept the blocks that they are arranged in, and whatever they build. -/
theorem arranged_run (made : ofLanes (lanes.map StandardLane.general) = .ok start)
    (blank : ∀ lane ∈ lanes, ∃ policy, lane.pool = .empty policy)
    (ignores : ∀ lane ∈ lanes, (StandardLane.general lane).IgnoresState) (calls : List (Call C T))
    (state : C) (limit : Nat) :
    (∀ txs, totalSize txs ≤ maxCount →
      ((∃ draft after, ((start.run calls).judge limit txs).outcome state = (.ok draft, after)) ↔
        GeneralLane.Arranged lanes limit 0 state txs)) ∧
    ∀ codec : Codec T, (∀ sealedTx ∈ newcomers calls, codec.Reads sealedTx) →
      ∃ draft txs after, ((start.run calls).build state limit).result = .ok draft ∧
        readBlock codec draft.txs = .ok txs ∧
        ((start.run calls).judge limit txs).outcome state = (.ok draft, after) := by
  obtain ⟨general, -⟩ := ofLanes_eq_ok made
  constructor
  · intro txs small
    rw [judge_run]
    exact exists_judge_iff_arranged made ignores small
  · intro codec reads
    apply exists_judge_build general
    · rw [general]
      exact List.forall_mem_map.mpr blank
    · rw [general]
      exact List.forall_mem_map.mpr ignores
    · exact reads

open Ledger in
theorem arranged_run_of_overlap :
    let settings : LaneSettings State Tx := ⟨Wire.codec, some (Rules.verifier {}), {}⟩
    let lanes : List (GeneralLane State Tx) :=
      [{ name := "sent", settings, pool := settings.emptyPool,
         exclusions := [fun _ tx => Transaction.isBid tx] },
        { name := "rest", settings, pool := settings.emptyPool }]
    let state := State.empty 1 .prepare 1000
    let transfer := Tx.transfer (.ofIndex 1) 0 0
    let bid := Tx.bid (.ofIndex 2) 0 100 []
    let txs := [SealedTx.ofParts transfer (Wire.encode transfer), SealedTx.ofParts bid (Wire.encode bid)]
    let registry := run ⟨lanes.map .general⟩ (txs.map (.insert state))
    ofLanes (lanes.map StandardLane.general) = .ok ⟨lanes.map .general⟩ ∧
      ((∃ draft after, (registry.judge 1000 txs).outcome state = (.ok draft, after)) ↔
        GeneralLane.Arranged lanes 1000 0 state txs) ∧
      ∃ draft block after, (registry.build state 1000).result = .ok draft ∧
        readBlock Wire.codec draft.txs = .ok block ∧
        (registry.judge 1000 block).outcome state = (.ok draft, after) := by
  intro settings lanes state transfer bid txs registry
  have names : checkLanes [] (lanes.map StandardLane.general) = .ok () := rfl
  have shares : Share.fitsBlock ((lanes.map StandardLane.general).map BlockLane.share) = true := by
    decide
  have made : ofLanes (lanes.map StandardLane.general) = .ok ⟨lanes.map .general⟩ := by
    rw [ofLanes, names, shares]
    rfl
  have small : totalSize txs ≤ maxCount := by decide +kernel
  have reads : ∀ sealedTx ∈ newcomers (txs.map (.insert state)), Wire.codec.Reads sealedTx := by
    intro sealedTx mem
    rcases List.mem_pair.mp mem with rfl | rfl
    · exact Wire.codec_decode_eq_ok_iff.mpr ⟨by decide, rfl⟩
    · exact Wire.codec_decode_eq_ok_iff.mpr ⟨by decide, rfl⟩
  have arranged := arranged_run made (fun lane mem => ?_) (fun lane mem => ?_)
    (txs.map (.insert state)) state 1000
  · exact ⟨made, arranged.1 txs small, arranged.2 Wire.codec reads⟩
  · rcases List.mem_pair.mp mem with rfl | rfl <;> exact ⟨_, rfl⟩
  · rcases List.mem_pair.mp mem with rfl | rfl <;> exact fun _ _ _ => rfl

end Registry

end BlockBuilder
