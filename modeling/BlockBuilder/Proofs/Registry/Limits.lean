import BlockBuilder.Proofs.Builder.Budget
import BlockBuilder.Proofs.Lane.Offers
import BlockBuilder.Proofs.Registry.Layout

namespace BlockBuilder

variable {C T : Type} {draft extended : Draft} {limit : Nat} {state : C}

theorem Share.portion_eq_zero {share : Share} (zero : share.isZero = true) (count : Nat) :
    share.portion count = 0 := by
  unfold Share.isZero at zero
  rw [beq_iff_eq] at zero
  simp [Share.portion, zero]

theorem Draft.allowance_eq_portion {share : Share} (nonzero : share.isZero = false) :
    draft.allowance share = share.portion draft.limit := by
  rw [allowance, nonzero]
  rfl

namespace Registry

variable {L : Type} [BlockLane L C T] {lanes : List L} {start : Registry L}

theorem sum_allowance_eq (draft : Draft) (lanes : List L) :
    ((lanes.filter fun lane => !(BlockLane.share lane).isZero).map fun lane =>
        draft.allowance (BlockLane.share lane)).sum =
      ((lanes.map BlockLane.share).map fun share => share.portion draft.limit).sum := by
  induction lanes with
  | nil => rfl
  | cons lane rest ih =>
    cases zero : (BlockLane.share lane).isZero with
    | true => simp [zero, ih, Share.portion_eq_zero zero]
    | false => simp [zero, ih, Draft.allowance_eq_portion zero]

theorem sum_allowance_le (made : ofLanes lanes = .ok start) (draft : Draft) :
    ((lanes.filter fun lane => !(BlockLane.share lane).isZero).map fun lane =>
        draft.allowance (BlockLane.share lane)).sum ≤ draft.limit := by
  obtain ⟨-, -, fits, -⟩ := ofLanes_eq_ok_iff.mp made
  rw [sum_allowance_eq]
  exact Share.sum_portion_le fits draft.limit

end Registry

namespace Draft

theorem add_ne_over {lane : String} {share : Share} {txs : List (SealedTx T)}
    (small : bytesOf txs ≤ draft.allowance share)
    (room : draft.total + draft.allowance share ≤ draft.limit) (named : String) (size bound : Nat) :
    draft.add lane share txs ≠ .error (.overLaneLimit named size bound) ∧
      draft.add lane share txs ≠ .error (.overBlockLimit named size bound) := by
  have total : addCapped draft.total (bytesOf txs) ≤ draft.limit :=
    (Nat.min_le_left ..).trans ((Nat.add_le_add_left small _).trans room)
  unfold add
  split
  · simp
  · split
    · simp
    · split
      · simp
      · simp [Nat.not_lt.mpr small, Nat.not_lt.mpr total]

def KeepsLimits : Draft → List (Addition T) → Prop
  | _, [] => True
  | draft, addition :: rest =>
    (∀ named size bound, draft.perform addition ≠ .error (.overLaneLimit named size bound) ∧
      draft.perform addition ≠ .error (.overBlockLimit named size bound)) ∧
    (draft.run [addition]).KeepsLimits rest

theorem keepsLimits_append {first second : List (Addition T)} :
    draft.KeepsLimits (first ++ second) ↔
      draft.KeepsLimits first ∧ (draft.run first).KeepsLimits second := by
  induction first generalizing draft with
  | nil => simp [KeepsLimits, run]
  | cons addition rest ih =>
    rw [List.cons_append, KeepsLimits, KeepsLimits, ih, and_assoc, ← run_append,
      List.singleton_append]

theorem total_le_of_add {lane : String} {share : Share} {txs : List (SealedTx T)}
    (added : draft.add lane share txs = .ok extended) :
    extended.total ≤ draft.total + draft.allowance share := by
  rcases add_eq_ok_iff.mp added with ⟨-, rfl⟩ | ⟨-, admits, rfl⟩
  · exact Nat.le_add_right ..
  · exact (Nat.min_le_left ..).trans (Nat.add_le_add_left admits.withinShare _)

end Draft

variable [Transaction T] [BlockState C]

namespace AuctionLane

variable {lane : AuctionLane C T}

theorem run_tried (bids : List (SealedTx T)) :
    draft.run (lane.chooseLogged draft limit state bids).tried =
      (lane.chooseLogged draft limit state bids).result.draft := by
  induction bids with
  | nil => rfl
  | cons bidTx rest ih =>
    rcases lane.chooseLogged_cons draft limit state bidTx rest with
      ⟨tried, same⟩ | ⟨bundle, -, ⟨cause, refused, tried, same⟩ | ⟨extended, taken, tried, same⟩⟩
    · rw [tried, same, ih]
    · rw [tried, same, ← List.singleton_append, Draft.run_append, Draft.run_singleton_of_error refused, ih]
    · rw [tried, same, Draft.run_singleton_of_ok taken]

theorem keepsLimits_tried (room : draft.total + draft.allowance lane.share ≤ draft.limit)
    (state : C) (bids : List (SealedTx T)) :
    draft.KeepsLimits (lane.chooseLogged draft (draft.allowance lane.share) state bids).tried := by
  induction bids with
  | nil => trivial
  | cons bidTx rest ih =>
    rcases lane.chooseLogged_cons draft (draft.allowance lane.share) state bidTx rest with
      ⟨tried, -⟩ | ⟨bundle, small, ⟨cause, refused, tried, -⟩ | ⟨extended, -, tried, -⟩⟩
    · rwa [tried]
    · rw [tried]
      refine ⟨Draft.add_ne_over small room, ?_⟩
      rwa [Draft.run_singleton_of_error refused]
    · rw [tried]
      exact ⟨Draft.add_ne_over small room, trivial⟩

end AuctionLane

namespace StandardLane

variable {lane : StandardLane C T}

theorem run_tried (lane : StandardLane C T) (draft : Draft) (state : C) :
    draft.run (lane.contributeLogged draft (draft.allowance lane.settings.limits.share) state).tried =
      match (lane.contribute draft (draft.allowance lane.settings.limits.share) state).result with
      | .ok extended => extended
      | .error _ => draft := by
  cases lane with
  | auction lane =>
    rw [← result_contributeLogged, contributeLogged, Logged.tried_map, Logged.result_map,
      lane.tried_contributeLogged]
    exact AuctionLane.run_tried lane.pool.select.1
  | general lane =>
    rw [settings, GeneralLane.contribute_result_eq]
    split
    · rename_i extended given
      exact Draft.run_singleton_of_ok given
    · rename_i cause refused
      exact Draft.run_singleton_of_error refused

theorem keepsLimits_tried
    (room : draft.total + draft.allowance lane.settings.limits.share ≤ draft.limit) :
    draft.KeepsLimits
      (lane.contributeLogged draft (draft.allowance lane.settings.limits.share) state).tried := by
  cases lane with
  | auction lane =>
    rw [contributeLogged, Logged.tried_map, lane.tried_contributeLogged]
    exact AuctionLane.keepsLimits_tried room state lane.pool.select.1
  | general lane => exact ⟨Draft.add_ne_over GeneralLane.picks_within room, trivial⟩

end StandardLane

namespace Chain

theorem run_tried (lanes : List (StandardLane C T)) (draft : Draft) (state : C) :
    (build lanes draft state).result = .ok (draft.run (buildLogged lanes draft state).tried) := by
  induction lanes generalizing draft state with
  | nil => rfl
  | cons lane rest ih =>
    rw [build_cons, tried_buildLogged_cons, Draft.run_append, lane.run_tried]
    dsimp only
    cases (lane.contribute draft (draft.allowance lane.settings.limits.share) state).result with
    | error cause => exact ih draft state
    | ok extended => exact ih extended _

def HasRoom (lanes : List (StandardLane C T)) (draft : Draft) : Prop :=
  draft.total + (lanes.map fun lane => lane.settings.limits.share.portion draft.limit).sum ≤ draft.limit

def LeftoversLast (lanes : List (StandardLane C T)) : Prop :=
  lanes.Pairwise fun lane later =>
    lane.settings.limits.share.isZero = true → later.settings.limits.share.isZero = true

variable {lane : StandardLane C T} {later : List (StandardLane C T)}

omit [Transaction T] [BlockState C] in
theorem HasRoom.first (room : HasRoom (lane :: later) draft) :
    draft.total + draft.allowance lane.settings.limits.share ≤ draft.limit := by
  unfold HasRoom at room
  rw [List.map_cons, List.sum_cons] at room
  cases zero : lane.settings.limits.share.isZero with
  | true =>
    rw [Draft.allowance, zero, if_pos rfl, Draft.free]
    omega
  | false =>
    rw [Draft.allowance_eq_portion zero]
    omega

omit [Transaction T] [BlockState C] in
theorem HasRoom.rest (room : HasRoom (lane :: later) draft) (ordered : LeftoversLast (lane :: later))
    (limit : extended.limit = draft.limit)
    (total : extended.total ≤ draft.total + draft.allowance lane.settings.limits.share) :
    HasRoom later extended := by
  have within := room.first
  unfold HasRoom at room ⊢
  rw [limit]
  rw [List.map_cons, List.sum_cons] at room
  cases zero : lane.settings.limits.share.isZero with
  | true =>
    -- the lanes behind take what is left too, so nothing has to be kept for them
    have nothing : (later.map fun lane => lane.settings.limits.share.portion draft.limit).sum = 0 := by
      apply List.sum_eq_zero
      simp only [List.forall_mem_map]
      exact fun lane mem => Share.portion_eq_zero (List.rel_of_pairwise_cons ordered mem zero) _
    omega
  | false =>
    rw [Draft.allowance_eq_portion zero] at total
    omega

theorem keepsLimits_tried (lanes : List (StandardLane C T)) (ordered : LeftoversLast lanes)
    (room : HasRoom lanes draft) : draft.KeepsLimits (buildLogged lanes draft state).tried := by
  induction lanes generalizing draft state with
  | nil => trivial
  | cons lane rest ih =>
    have later := List.Pairwise.of_cons ordered
    rw [tried_buildLogged_cons, Draft.keepsLimits_append, lane.run_tried]
    refine ⟨StandardLane.keepsLimits_tried room.first, ?_⟩
    dsimp only
    cases given : (lane.contribute draft (draft.allowance lane.settings.limits.share) state).result with
    | ok extended =>
      obtain ⟨txs, -, added⟩ := StandardLane.contribute_gives given
      exact ih later (room.rest ordered (Draft.limit_of_add added) (Draft.total_le_of_add added))
    | error cause => exact ih later (room.rest ordered rfl (Nat.le_add_right ..))

end Chain

namespace Registry

variable {lanes : List (StandardLane C T)} {start : Registry (StandardLane C T)}

/-- The limits of the lanes that have a share fit the block together. If the lanes without one come
last, none of the additions that the draft is offered while a block is built is refused for its size. -/
theorem build_keepsLimits (made : ofLanes lanes = .ok start) :
    (∀ draft : Draft, ((lanes.filter fun lane => !(BlockLane.share lane).isZero).map fun lane =>
        draft.allowance (BlockLane.share lane)).sum ≤ draft.limit) ∧
    (Chain.LeftoversLast lanes → ∀ limit state,
      let logged := Chain.buildLogged lanes (.empty limit) state
      logged.result = Chain.build lanes (.empty limit) state ∧
        (start.build state limit).result = .ok ((Draft.empty limit).run logged.tried) ∧
        (Draft.empty limit).KeepsLimits logged.tried) := by
  obtain ⟨-, -, fits, rfl⟩ := ofLanes_eq_ok_iff.mp made
  refine ⟨sum_allowance_le made, fun ordered limit state => ⟨?_, ?_, ?_⟩⟩
  · exact Chain.result_buildLogged lanes (.empty limit) state
  · exact Chain.run_tried lanes (.empty limit) state
  · apply Chain.keepsLimits_tried lanes ordered
    have portions := Share.sum_portion_le fits limit
    rw [List.map_map] at portions
    exact (Nat.zero_add _).trans_le portions

open Ledger in
/-- Of a limit of 100 bytes the lanes with a share may fill 33 each, and the last lane fills the rest. -/
theorem build_keepsLimits_of_thirds :
    let lane (name : String) (share : Share) (place : UInt8) : GeneralLane State Tx :=
      { Chain.ledgerLane name place with settings := ⟨Wire.codec, some (Rules.verifier {}), { share }⟩ }
    let lanes : List (StandardLane State Tx) :=
      [.general (lane "first" ⟨1, 3⟩ 1), .general (lane "second" ⟨2, 6⟩ 2), .general (lane "rest" .zero 3)]
    let state := State.empty 1 .prepare 100
    let logged := Chain.buildLogged lanes (.empty 100) state
    ofLanes lanes = .ok ⟨lanes⟩ ∧ Chain.LeftoversLast lanes ∧
      ((lanes.filter fun lane => !(BlockLane.share lane).isZero).map fun lane =>
        (Draft.empty 100).allowance (BlockLane.share lane)).sum ≤ 100 ∧
      logged.result = Chain.build lanes (.empty 100) state ∧
      (Registry.build ⟨lanes⟩ state 100).result = .ok ((Draft.empty 100).run logged.tried) ∧
      (Draft.empty 100).KeepsLimits logged.tried := by
  intro lane lanes state logged
  have made : ofLanes lanes = .ok ⟨lanes⟩ :=
    ofLanes_eq_ok_iff.mpr ⟨List.cons_ne_nil _ _, rfl, by decide, rfl⟩
  have ordered : Chain.LeftoversLast lanes := by
    unfold Chain.LeftoversLast
    decide
  obtain ⟨portions, kept⟩ := build_keepsLimits made
  exact ⟨made, ordered, portions (.empty 100), kept ordered 100 state⟩

end Registry

end BlockBuilder
