import BlockBuilder.Proofs.Ledger.Pending

/-!
# Commits

After a commit everything that is still pending is submitted again, one transaction after another, while
the lanes change. At its turn a transaction is still pending; if it is admitted, it goes back to where it
was and nothing else changes, and if it is refused, it can be taken out and nothing else is
(`Keeps.recheck_single`). So nothing is lost on the way, and a commit counts exactly what it evicts
(`commit_accounts`).
-/
namespace BlockBuilder

theorem Collisionless.mono {strings others : List Bytes} (collisionless : Collisionless strings)
    (fewer : others ⊆ strings) : Collisionless others :=
  fun first mem second mem' => collisionless first (fewer mem) second (fewer mem')

theorem encard_eq_countP {α : Type} {items : List α} (distinct : items.Nodup) (test : α → Bool) :
    {item | item ∈ items ∧ test item = true}.encard = items.countP test := by
  classical
  have listed : {item | item ∈ items ∧ test item = true} = ((items.filter test).toFinset : Set α) := by
    ext item
    simp
  rw [listed, Set.encard_coe_eq_coe_finsetCard, List.toFinset_card_of_nodup (distinct.filter test),
    List.countP_eq_length_filter]

namespace Ledger.Node

variable {config : Config} {byteLimit : Nat} {rules : Rules} {submissions block : List Bytes}
  {node : Node} {first sealedTx other : SealedTx Tx} {rest pending txs : List (SealedTx Tx)}
  {after : State}

/-! ## One turn -/

theorem Keeps.holds_submitBytes_iff (keeps : node.Keeps config rules submissions)
    (collisionless : Collisionless submissions) (holds : node.registry.Holds sealedTx)
    (other : SealedTx Tx) :
    (node.submitBytes sealedTx.bytes).2.registry.Holds other ↔ node.registry.Holds other := by
  rw [registry, builder_submitBytes]
  refine keeps.builder.holds_submit_iff (keeps.sent_of_holds holds).1 ?_ ?_ node.checkState other
  · exact ((keeps.housed collisionless).contains_iff_exists_holds _).mpr ⟨sealedTx, holds, rfl⟩
  · intro other pending same
    rw [keeps.eq_of_digest_eq collisionless pending holds same]

theorem Keeps.exists_remove (keeps : node.Keeps config rules submissions)
    (collisionless : Collisionless submissions) (holds : node.registry.Holds sealedTx) :
    ∃ registry, (node.submitBytes sealedTx.bytes).2.registry.remove sealedTx.digest = .ok registry ∧
      ∀ other, registry.Holds other ↔ node.registry.Holds other ∧ other ≠ sealedTx := by
  have again := keeps.submitBytes_of_mem (keeps.sent_of_holds holds).2
  have housed := again.housed collisionless
  have kept := keeps.holds_submitBytes_iff collisionless holds
  have here := (kept sealedTx).mpr holds
  rcases housed.remove_cases sealedTx.digest with ⟨absent, -⟩ | ⟨-, registry, removed, left⟩
  · have known := (housed.contains_iff_exists_holds _).mpr ⟨sealedTx, here, rfl⟩
    rw [absent] at known
    cases known
  · refine ⟨registry, removed, fun other => (left other).trans ?_⟩
    rw [← kept other]
    refine and_congr_right fun pending => not_congr ⟨fun same => ?_, congrArg SealedTx.digest⟩
    exact again.eq_of_digest_eq collisionless pending here same

theorem recheck_of_admitted {digest : Digest} {again : Node}
    (admitted : node.submitBytes sealedTx.bytes = (.ok digest, again)) :
    node.recheck [sealedTx] = (0, again) := by
  simp only [Node.recheck, admitted]

theorem Keeps.recheck_single (keeps : node.Keeps config rules submissions)
    (collisionless : Collisionless submissions) (holds : node.registry.Holds sealedTx) :
    (node.recheck [sealedTx]).1 = (if (node.submitBytes sealedTx.bytes).1.isOk then 0 else 1) ∧
    ∀ other, (node.recheck [sealedTx]).2.registry.Holds other ↔ node.registry.Holds other ∧
      (other = sealedTx → (node.submitBytes sealedTx.bytes).1.isOk = true) := by
  have kept := keeps.holds_submitBytes_iff collisionless holds
  obtain ⟨registry, removed, left⟩ := keeps.exists_remove collisionless holds
  rcases answered : node.submitBytes sealedTx.bytes with ⟨cause | digest, again⟩
  · rw [answered] at removed
    have evicted : node.recheck [sealedTx] = (1, again.withRegistry registry) := by
      simp only [Node.recheck, answered, removed]
    rw [evicted]
    refine ⟨rfl, fun other => (left other).trans (and_congr_right fun _ => ?_)⟩
    simp [Except.isOk, Except.toBool]
  · rw [answered] at kept
    rw [recheck_of_admitted answered]
    refine ⟨rfl, fun other => (kept other).trans ?_⟩
    simp [Except.isOk, Except.toBool]

theorem Keeps.mayReplace (keeps : node.Keeps config rules submissions) {lane : StandardLane State Tx}
    (mem : lane ∈ node.registry.lanes) (old new : UInt64) (holder newcomer : Tx) :
    lane.pool.policy.mayReplace old new holder newcomer = true := by
  obtain ⟨position, found⟩ := List.mem_iff_getElem?.mp mem
  obtain ⟨before, operations, there, rfl, -⟩ := keeps.evolves.getElem? found
  have policy : ∃ capacity, before.pool = .empty { capacity } := by
    rcases List.mem_pair.mp (List.mem_of_getElem? there) with rfl | rfl <;> exact ⟨_, rfl⟩
  obtain ⟨capacity, empty⟩ := policy
  rw [StandardLane.pool_run, empty, (Pool.policy_run _ operations).1]

theorem Keeps.submit_eq_ok_iff (keeps : node.Keeps config rules submissions)
    (collisionless : Collisionless submissions) (holds : node.registry.Holds sealedTx)
    {digest : Digest} {registry : Registry (StandardLane State Tx)} :
    node.builder.rules.submit node.registry node.checkState sealedTx.bytes =
        (.ok (digest, passed), registry) ↔
      ∃ middle, node.builder.rules.screen node.registry node.checkState sealedTx = (.ok passed, middle) ∧
        middle.insert passed sealedTx = .ok registry ∧ digest = sealedTx.digest := by
  obtain ⟨reads, -⟩ := keeps.sent_of_holds holds
  have known := ((keeps.housed collisionless).contains_iff_exists_holds _).mpr ⟨sealedTx, holds, rfl⟩
  have codec : node.builder.rules.codec = Wire.codec := by rw [keeps.builder.settled.2]
  rw [Admission.submit_eq_ok_iff, codec]
  constructor
  · rintro ⟨again, middle, read, -, entered⟩
    obtain ⟨same, read⟩ := SealedTx.decode_eq_ok_iff.mp read
    rw [← same] at read
    obtain rfl : again = sealedTx := Codec.Reads.eq_of_bytes_eq read reads same
    exact ⟨middle, entered⟩
  · rintro ⟨middle, entered⟩
    exact ⟨sealedTx, middle, SealedTx.decode_eq_ok_iff.mpr ⟨rfl, reads⟩, fun _ => known, entered⟩

theorem Keeps.exists_insert_of_not_isBid (keeps : node.Keeps config rules submissions)
    (holds : node.registry.Holds sealedTx) (noBid : Transaction.isBid sealedTx.tx = false) (next : State) :
    ∃ registry, node.registry.insert next sealedTx = .ok registry := by
  obtain ⟨bids, others, lanes, auction, general⟩ := keeps.builder.lanes
  have lanes : node.registry.lanes = _ := lanes
  obtain ⟨lane, mem, held⟩ := holds
  have own := keeps.mayReplace mem
  rw [lanes] at mem
  rcases List.mem_pair.mp mem with rfl | rfl
  · obtain ⟨-, -, bid, made, -⟩ := auction.of_holds held
    cases (isBid_of_made made).symm.trans noBid
  · obtain ⟨pool, inserted⟩ := general.aligned.exists_insert_of_holds own held (BlockState.priority next)
    have elsewhere : BlockLane.accepts (StandardLane.auction
        { Builder.auctionLane config Wire.codec rules.verifier State.funds with pool := bids }) next
          sealedTx.tx = false := noBid
    have accepts : BlockLane.accepts (StandardLane.general
        { Builder.generalLane config Wire.codec rules.verifier with pool := others }) next
          sealedTx.tx = true := by
      change GeneralLane.accepts _ next sealedTx.tx = true
      simp [GeneralLane.accepts, Builder.generalLane, noBid]
    have entered : BlockLane.insert (StandardLane.general
        { Builder.generalLane config Wire.codec rules.verifier with pool := others }) next sealedTx =
          .ok (.general { Builder.generalLane config Wire.codec rules.verifier with pool }) := by
      refine (StandardLane.insert_eq ..).trans ?_
      rw [StandardLane.pool, StandardLane.priorityOf, inserted]
      rfl
    rw [Registry.insert, lanes, Registry.insertFirst, elsewhere, Registry.insertFirst, accepts, entered]
    exact ⟨_, rfl⟩

theorem Keeps.isOk_submitBytes_iff (keeps : node.Keeps config rules submissions)
    (collisionless : Collisionless submissions) (holds : node.registry.Holds sealedTx)
    (noBid : Transaction.isBid sealedTx.tx = false) :
    (node.submitBytes sealedTx.bytes).1.isOk = true ↔
      ∃ next, rules.check node.checkState sealedTx.tx = .ok next := by
  have plain : Bid.ofTx? node.builder.rules.codec sealedTx.tx = .ok none := ofTx?_eq_none_iff.mpr noBid
  have screened : node.builder.rules.screen node.registry node.checkState sealedTx =
      (node.builder.rules.verify node.checkState sealedTx.tx, node.registry) := by
    simp only [Admission.screen, plain]
  have verified (next : State) : node.builder.rules.verify node.checkState sealedTx.tx = .ok next ↔
      rules.check node.checkState sealedTx.tx = .ok next := by
    rw [Admission.verify_eq_ok_iff, keeps.builder.settled.2]
    exact mapError_eq_ok_iff
  constructor
  · intro ok
    unfold Node.submitBytes at ok
    rcases answered : node.builder.rules.submit node.registry node.checkState sealedTx.bytes with
      ⟨cause | ⟨digest, next⟩, registry⟩
    · rw [answered] at ok
      cases ok
    · obtain ⟨middle, passed, -⟩ := (keeps.submit_eq_ok_iff collisionless holds).mp answered
      exact ⟨next, (verified next).mp (congrArg Prod.fst (screened.symm.trans passed))⟩
  · rintro ⟨next, executed⟩
    obtain ⟨registry, inserted⟩ := keeps.exists_insert_of_not_isBid holds noBid next
    have passed := screened.trans (congrArg (·, node.registry) ((verified next).mpr executed))
    have answered := (keeps.submit_eq_ok_iff collisionless holds).mpr ⟨_, passed, inserted, rfl⟩
    simp only [Node.submitBytes, answered]
    rfl

/-! ## All turns -/

theorem recheck_cons (node : Node) (first : SealedTx Tx) (rest : List (SealedTx Tx)) :
    node.recheck (first :: rest) =
      ((node.recheck [first]).1 + ((node.recheck [first]).2.recheck rest).1,
        ((node.recheck [first]).2.recheck rest).2) := by
  rcases answered : node.submitBytes first.bytes with ⟨cause | digest, again⟩
  · cases removed : again.registry.remove first.digest with
    | error cause => simp [recheck, answered, removed]
    | ok registry => simp [recheck, answered, removed, Nat.add_comm]
  · simp [recheck, answered]

def turn (node : Node) (pending : List (SealedTx Tx)) (sealedTx : SealedTx Tx) : Node :=
  (node.recheck (pending.takeWhile fun other => other.digest ≠ sealedTx.digest)).2

def returns (node : Node) (pending : List (SealedTx Tx)) (sealedTx : SealedTx Tx) : Bool :=
  ((node.turn pending sealedTx).submitBytes sealedTx.bytes).1.isOk

theorem turn_cons_self (node : Node) (sealedTx : SealedTx Tx) (rest : List (SealedTx Tx)) :
    node.turn (sealedTx :: rest) sealedTx = node := by
  simp [turn, recheck]

theorem turn_cons_of_ne (differ : first.digest ≠ sealedTx.digest) :
    node.turn (first :: rest) sealedTx = (node.recheck [first]).2.turn rest sealedTx := by
  rw [turn, List.takeWhile_cons_of_pos (by simpa using differ), recheck_cons]
  rfl

theorem Keeps.sent_of_listed (keeps : node.Keeps config rules submissions)
    (listed : ∀ sealedTx ∈ pending, node.registry.Holds sealedTx) :
    ∀ sealedTx ∈ pending, sealedTx.bytes ∈ submissions :=
  fun sealedTx mem => (keeps.sent_of_holds (listed sealedTx mem)).2

theorem Keeps.recheck_run (keeps : node.Keeps config rules submissions)
    (collisionless : Collisionless submissions)
    (listed : ∀ sealedTx ∈ pending, node.registry.Holds sealedTx)
    (distinct : (pending.map SealedTx.digest).Nodup) :
    (node.recheck pending).1 = pending.countP (fun sealedTx => !node.returns pending sealedTx) ∧
    ∀ other, (node.recheck pending).2.registry.Holds other ↔
      node.registry.Holds other ∧ (other ∈ pending → node.returns pending other = true) := by
  induction pending generalizing node with
  | nil => simp [Node.recheck]
  | cons first rest ih =>
    obtain ⟨holds, later⟩ := List.forall_mem_cons.mp listed
    obtain ⟨new, distinct⟩ := List.nodup_cons.mp distinct
    have differ {other} (mem : other ∈ rest) : first.digest ≠ other.digest :=
      fun same => new (same ▸ List.mem_map_of_mem mem)
    have own : node.returns (first :: rest) first = (node.submitBytes first.bytes).1.isOk := by
      rw [returns, turn_cons_self]
    have others {other} (mem : other ∈ rest) :
        node.returns (first :: rest) other = (node.recheck [first]).2.returns rest other := by
      rw [returns, returns, turn_cons_of_ne (differ mem)]
    obtain ⟨count, single⟩ := keeps.recheck_single collisionless holds
    -- the others have their turns in the node that the first one leaves
    have keeps' : (node.recheck [first]).2.Keeps config rules submissions :=
      keeps.recheck (List.forall_mem_singleton.mpr (keeps.sent_of_holds holds).2)
    have listed' : ∀ sealedTx ∈ rest, (node.recheck [first]).2.registry.Holds sealedTx := by
      intro sealedTx mem
      refine (single sealedTx).mpr ⟨later sealedTx mem, ?_⟩
      rintro rfl
      exact absurd rfl (differ mem)
    obtain ⟨counted, held⟩ := ih keeps' listed' distinct
    rw [recheck_cons]
    constructor
    · have same : rest.countP (fun sealedTx => !node.returns (first :: rest) sealedTx) =
          rest.countP fun sealedTx => !(node.recheck [first]).2.returns rest sealedTx :=
        List.countP_congr fun other mem => by rw [others mem]
      rw [List.countP_cons, same, own, ← counted, count, Nat.add_comm]
      cases (node.submitBytes first.bytes).1.isOk <;> rfl
    · intro other
      rw [held, single, and_assoc, List.mem_cons, or_imp]
      refine and_congr_right fun _ => and_congr (imp_congr_right fun same => ?_) ?_
      · rw [same, own]
      · exact imp_congr_right fun mem => by rw [others mem]

theorem Keeps.turn_of_mem (keeps : node.Keeps config rules submissions)
    (collisionless : Collisionless submissions)
    (listed : ∀ sealedTx ∈ pending, node.registry.Holds sealedTx)
    (distinct : (pending.map SealedTx.digest).Nodup) (mem : sealedTx ∈ pending) :
    (node.turn pending sealedTx).Keeps config rules submissions ∧
      (node.turn pending sealedTx).registry.Holds sealedTx := by
  have earlier := List.takeWhile_sublist (fun other : SealedTx Tx => other.digest ≠ sealedTx.digest)
    (l := pending)
  have listed' := fun other mem => listed other (earlier.subset mem)
  refine ⟨keeps.recheck (keeps.sent_of_listed listed'), ?_⟩
  obtain ⟨-, held⟩ :=
    keeps.recheck_run collisionless listed' (distinct.sublist (earlier.map SealedTx.digest))
  refine (held sealedTx).mpr ⟨listed sealedTx mem, fun before => ?_⟩
  have differs := List.mem_takeWhile_imp before
  simp at differs

/-! ## Commits -/

theorem Keeps.checkState_submitBytes (keeps : node.Keeps config rules submissions) (kept : State → Prop)
    (step : ∀ state tx after, rules.check state tx = .ok after → kept state → kept after)
    (start : kept node.checkState) (bytes : Bytes) : kept (node.submitBytes bytes).2.checkState := by
  unfold Node.submitBytes
  split
  · exact start
  · rename_i digest next registry admitted
    obtain ⟨sealedTx, middle, -, -, screened, -, -⟩ := Admission.submit_eq_ok_iff.mp admitted
    obtain ⟨txs, -, ran⟩ := Admission.executes_of_screen (congrArg Prod.fst screened)
    rw [keeps.builder.settled.2] at ran
    refine replay_induction kept (fun state tx after executed => ?_) txs ran start
    have checked : rules.check state tx = .ok after := mapError_eq_ok_iff.mp executed
    exact step state tx after checked

theorem Keeps.checkState_recheck (keeps : node.Keeps config rules submissions) (kept : State → Prop)
    (step : ∀ state tx after, rules.check state tx = .ok after → kept state → kept after)
    (start : kept node.checkState) (sent : ∀ sealedTx ∈ pending, sealedTx.bytes ∈ submissions) :
    kept (node.recheck pending).2.checkState := by
  induction pending generalizing node with
  | nil => exact start
  | cons sealedTx rest ih =>
    obtain ⟨own, sent⟩ := List.forall_mem_cons.mp sent
    have submitted := keeps.submitBytes_of_mem own
    have left := keeps.checkState_submitBytes kept step start sealedTx.bytes
    rw [Node.recheck]
    split
    · rename_i same
      rw [same] at submitted left
      exact ih submitted left sent
    · rename_i same
      rw [same] at submitted left
      split
      · rename_i removed
        exact ih (submitted.remove removed) left sent
      · exact ih submitted left sent

theorem Keeps.holds_removeCommitted_iff (keeps : node.Keeps config rules submissions)
    (collisionless : Collisionless submissions) (txs : List (SealedTx Tx)) (other : SealedTx Tx) :
    (node.registry.removeCommitted txs).2.Holds other ↔
      node.registry.Holds other ∧ other.digest ∉ txs.map SealedTx.digest := by
  induction txs generalizing node with
  | nil => simp [Registry.removeCommitted]
  | cons sealedTx rest ih =>
    rw [Registry.removeCommitted, List.map_cons, List.mem_cons, not_or]
    have housed := keeps.housed collisionless
    rcases housed.remove_cases sealedTx.digest with
      ⟨absent, refused⟩ | ⟨-, registry, removed, left⟩
    · rw [refused, ih keeps]
      refine and_congr_right fun holds => ⟨fun others => ⟨fun same => ?_, others⟩, And.right⟩
      have known := (housed.contains_iff_exists_holds sealedTx.digest).mpr ⟨other, holds, same⟩
      rw [absent] at known
      cases known
    · rw [removed, ← and_assoc, ← left other]
      exact ih (keeps.remove removed)

def opened (node : Node) (txs : List (SealedTx Tx)) (after : State) : Node :=
  let state := { after with height := node.state.height + 1, phase := .finalize }
  { node.withRegistry (node.registry.removeCommitted txs).2.select.2 with
    state, checkState := { state with phase := .recheck } }

theorem phase_opened (node : Node) (txs : List (SealedTx Tx)) (after : State) :
    (node.opened txs after).checkState.phase = .recheck := rfl

def leftover (node : Node) (txs : List (SealedTx Tx)) : List (SealedTx Tx) :=
  (node.registry.removeCommitted txs).2.select.1

theorem checkState_opened (node : Node) (txs : List (SealedTx Tx)) (after : State) :
    (node.opened txs after).checkState =
      { after with height := node.state.height + 1, phase := .recheck } := rfl

theorem lanes_opened_nil (node : Node) (after : State) :
    (node.opened [] after).registry.lanes = node.registry.lanes.map fun lane => lane.select.2 :=
  List.map_map

theorem leftover_nil (node : Node) : node.leftover [] = node.registry.select.1 := rfl

def closed (node : Node) (txs : List (SealedTx Tx)) (after : State) : Node :=
  let rechecked := ((node.opened txs after).recheck (node.leftover txs)).2
  { rechecked with checkState := { rechecked.checkState with phase := .check } }

theorem commit_eq_ok_iff {evicted : Nat} {next : Node} :
    node.commit block after = .ok (evicted, next) ↔
      ∃ txs, Registry.readBlock Wire.codec block = .ok txs ∧
        evicted = ((node.opened txs after).recheck (node.leftover txs)).1 ∧
          next = node.closed txs after := by
  rw [commit, map_eq_ok_iff]
  refine exists_congr fun txs => and_congr_right fun _ => ?_
  rw [← Prod.mk.injEq, eq_comm]
  rfl

theorem Keeps.opened (keeps : node.Keeps config rules submissions) (txs : List (SealedTx Tx))
    (after : State) : (node.opened txs after).Keeps config rules submissions :=
  ⟨(keeps.removeCommitted txs).select.builder, (keeps.removeCommitted txs).select.evolves⟩

theorem Keeps.sent_of_leftover (keeps : node.Keeps config rules submissions)
    (mem : sealedTx ∈ node.leftover txs) :
    Wire.codec.Reads sealedTx ∧ sealedTx.bytes ∈ submissions :=
  (keeps.removeCommitted txs).sent_of_holds (.of_mem_select mem)

theorem Keeps.closed (keeps : node.Keeps config rules submissions) (txs : List (SealedTx Tx))
    (after : State) : (node.closed txs after).Keeps config rules submissions :=
  have rechecked := (keeps.opened txs after).recheck fun _ mem => (keeps.sent_of_leftover mem).2
  ⟨rechecked.builder, rechecked.evolves⟩

theorem Played.keeps (played : Played config byteLimit rules submissions node) :
    node.Keeps config rules submissions := by
  induction played with
  | start created =>
    have sound := sound_of_create created
    unfold create at created
    rw [bind_eq_ok_iff] at created
    obtain ⟨builder, made, same⟩ := created
    cases same
    obtain ⟨-, rfl⟩ := Builder.ofConfig_eq_ok_iff.mp made
    exact ⟨sound.builder, .refl⟩
  | fund _ account amount ih => exact ⟨ih.builder, ih.evolves⟩
  | submit _ bytes ih => exact ih.submitBytes bytes
  | @propose submissions node _ ih =>
    let state := { node.state with phase := .prepare }
    exact ⟨ih.builder.propose state node.byteLimit,
      ih.evolves.trans (Registry.evolves_propose node.registry state node.byteLimit)⟩
  | @commit submissions node next block after evicted _ committed ih =>
    obtain ⟨txs, -, -, rfl⟩ := commit_eq_ok_iff.mp committed
    exact ih.closed txs after

theorem Keeps.nodup_leftover (keeps : node.Keeps config rules submissions)
    (collisionless : Collisionless submissions) (txs : List (SealedTx Tx)) :
    ((node.leftover txs).map SealedTx.digest).Nodup :=
  ((keeps.removeCommitted txs).housed collisionless).nodup_digests

theorem Keeps.holds_opened_iff (keeps : node.Keeps config rules submissions)
    (collisionless : Collisionless submissions) (txs : List (SealedTx Tx)) (after : State) :
    (node.opened txs after).registry.Holds sealedTx ↔ sealedTx ∈ node.leftover txs :=
  Registry.holds_select_iff.trans
    ((keeps.removeCommitted txs).housed collisionless).mem_select_iff.symm

theorem Keeps.mem_leftover_iff (keeps : node.Keeps config rules submissions)
    (collisionless : Collisionless (submissions ++ block))
    (read : Registry.readBlock Wire.codec block = .ok txs) :
    sealedTx ∈ node.leftover txs ↔ node.registry.Holds sealedTx ∧ sealedTx.bytes ∉ block := by
  have sent := collisionless.mono (List.subset_append_left submissions block)
  have entries := Registry.map_bytes_of_readBlock read
  refine ((keeps.removeCommitted txs).housed sent).mem_select_iff.trans
    ((keeps.holds_removeCommitted_iff sent txs sealedTx).trans ?_)
  refine and_congr_right fun holds => not_congr ?_
  rw [← entries, List.mem_map, List.mem_map]
  refine exists_congr fun committed => and_congr_right fun mem => ?_
  rw [committed.digest_eq, sealedTx.digest_eq]
  refine ⟨collisionless _ (List.mem_append_right _ ?_) _ (List.mem_append_left _ ?_), congrArg sha256⟩
  · exact entries ▸ List.mem_map_of_mem mem
  · exact (keeps.sent_of_holds holds).2

theorem Keeps.checkState_turn (keeps : node.Keeps config rules submissions) (txs : List (SealedTx Tx))
    (after : State) (sealedTx : SealedTx Tx) :
    let turn := (node.opened txs after).turn (node.leftover txs) sealedTx
    turn.checkState.phase = .recheck ∧ turn.checkState.height = node.state.height + 1 := by
  have earlier := (List.takeWhile_sublist (fun other : SealedTx Tx => other.digest ≠ sealedTx.digest)
    (l := node.leftover txs)).subset
  refine (keeps.opened txs after).checkState_recheck
    (fun state => state.phase = .recheck ∧ state.height = node.state.height + 1) ?_ ⟨rfl, rfl⟩
    fun other mem => (keeps.sent_of_leftover (earlier mem)).2
  intro state tx next executed kept
  rwa [Rules.eq_of_check executed]

/-- What a transaction finds at its turn: it is submitted again and is pending; if it is admitted, it
takes no other's place, and if it is refused, it can be taken out. -/
structure AtTurn (turn : Node) (sealedTx : SealedTx Tx) : Prop where
  phase : turn.checkState.phase = .recheck
  pending : turn.registry.Holds sealedTx
  stays (digest : Digest) (again : Node) (admitted : turn.submitBytes sealedTx.bytes = (.ok digest, again))
    (lane : String) (slot : Slot) : again.builder.held lane slot = turn.builder.held lane slot
  leaves (cause : AdmissionError) (again : Node)
    (refused : turn.submitBytes sealedTx.bytes = (.error cause, again)) :
    ∃ registry, again.registry.remove sealedTx.digest = .ok registry

theorem Keeps.turn_of_leftover (keeps : node.Keeps config rules submissions)
    (collisionless : Collisionless submissions) (after : State) (mem : sealedTx ∈ node.leftover txs) :
    ((node.opened txs after).turn (node.leftover txs) sealedTx).Keeps config rules submissions ∧
      ((node.opened txs after).turn (node.leftover txs) sealedTx).registry.Holds sealedTx :=
  (keeps.opened txs after).turn_of_mem collisionless
    (fun _ listed => (keeps.holds_opened_iff collisionless txs after).mpr listed)
    (keeps.nodup_leftover collisionless txs) mem

theorem Keeps.returns_iff (keeps : node.Keeps config rules submissions)
    (collisionless : Collisionless submissions) (after : State) (mem : sealedTx ∈ node.leftover txs)
    (noBid : Transaction.isBid sealedTx.tx = false) :
    (node.opened txs after).returns (node.leftover txs) sealedTx = true ↔ ∃ next, rules.check
      ((node.opened txs after).turn (node.leftover txs) sealedTx).checkState sealedTx.tx = .ok next := by
  obtain ⟨turned, holds⟩ := keeps.turn_of_leftover collisionless after mem
  exact turned.isOk_submitBytes_iff collisionless holds noBid

theorem Keeps.holds_of_bytes (keeps : node.Keeps config rules submissions)
    (reads : Wire.codec.Reads sealedTx)
    (selected : ∃ lane ∈ node.registry.lanes, sealedTx.bytes ∈ lane.select.1.map SealedTx.bytes) :
    node.registry.Holds sealedTx := by
  obtain ⟨lane, mem, listed⟩ := selected
  obtain ⟨other, selected, same⟩ := List.mem_map.mp listed
  rw [show lane.select.1 = lane.pool.select.1 from lane.select_fst] at selected
  have holds : node.registry.Holds other := ⟨lane, mem, .of_mem_select selected⟩
  exact (keeps.sent_of_holds holds).1.eq_of_bytes_eq reads same ▸ holds

theorem Keeps.atTurn (keeps : node.Keeps config rules submissions)
    (collisionless : Collisionless submissions) (after : State) (mem : sealedTx ∈ node.leftover txs) :
    ((node.opened txs after).turn (node.leftover txs) sealedTx).AtTurn sealedTx := by
  obtain ⟨turned, holds⟩ := keeps.turn_of_leftover collisionless after mem
  refine ⟨(keeps.checkState_turn txs after sealedTx).1, holds, ?_, ?_⟩
  · intro digest again admitted lane slot
    have keeps' := turned.submitBytes_of_mem (turned.sent_of_holds holds).2
    have same := turned.holds_submitBytes_iff collisionless holds
    rw [admitted] at keeps' same
    exact turned.held_eq_of_holds_iff keeps' same lane slot
  · intro cause again refused
    obtain ⟨registry, removed, -⟩ := turned.exists_remove collisionless holds
    rw [refused] at removed
    exact ⟨registry, removed⟩

theorem Keeps.closed_run (keeps : node.Keeps config rules submissions)
    (collisionless : Collisionless submissions) (txs : List (SealedTx Tx)) (after : State) :
    ((node.opened txs after).recheck (node.leftover txs)).1 = {sealedTx | sealedTx ∈ node.leftover txs ∧
      (node.opened txs after).returns (node.leftover txs) sealedTx = false}.encard ∧
    ∀ sealedTx, (node.closed txs after).registry.Holds sealedTx ↔ sealedTx ∈ node.leftover txs ∧
      (node.opened txs after).returns (node.leftover txs) sealedTx = true := by
  have distinct := keeps.nodup_leftover collisionless txs
  obtain ⟨counted, held⟩ := (keeps.opened txs after).recheck_run collisionless
    (fun other mem => (keeps.holds_opened_iff collisionless txs after).mpr mem) distinct
  constructor
  · rw [counted, ← encard_eq_countP distinct.of_map]
    simp
  · intro sealedTx
    refine (held sealedTx).trans ?_
    rw [keeps.holds_opened_iff collisionless]
    exact and_congr_right fun mem => ⟨fun returns => returns mem, fun returns _ => returns⟩

/-- A commit of a block that can be read leaves pending, where they were, exactly the transactions that
were pending, are not in the block and are admitted again at their turn. It counts the others that are
not in the block, and no turn takes another transaction's place or misses the one that it evicts. -/
theorem commit_accounts (played : Played config byteLimit rules submissions node)
    (collisionless : Collisionless (submissions ++ block))
    (decodable : ∀ entry ∈ block, ∃ tx, Wire.codec.decode entry = .ok tx) (after : State) :
    ∃ txs evicted next, Registry.readBlock Wire.codec block = .ok txs ∧
      node.commit block after = .ok (evicted, next) ∧
      (∀ lane slot priority sealedTx, next.builder.held lane slot = some (priority, sealedTx) ↔
        node.builder.held lane slot = some (priority, sealedTx) ∧ sealedTx.bytes ∉ block ∧
          (node.opened txs after).returns (node.leftover txs) sealedTx = true) ∧
      evicted = {sealedTx | node.registry.Holds sealedTx ∧ sealedTx.bytes ∉ block ∧
        (node.opened txs after).returns (node.leftover txs) sealedTx = false}.encard ∧
      ∀ sealedTx, node.registry.Holds sealedTx → sealedTx.bytes ∉ block →
        ((node.opened txs after).turn (node.leftover txs) sealedTx).AtTurn sealedTx := by
  have keeps := played.keeps
  have sent := collisionless.mono (List.subset_append_left submissions block)
  obtain ⟨txs, read⟩ := Registry.exists_readBlock decodable
  have pending (sealedTx : SealedTx Tx) : sealedTx ∈ node.leftover txs ↔
      node.registry.Holds sealedTx ∧ sealedTx.bytes ∉ block :=
    keeps.mem_leftover_iff collisionless read
  obtain ⟨counted, held⟩ := keeps.closed_run sent txs after
  refine ⟨txs, _, node.closed txs after, read, commit_eq_ok_iff.mpr ⟨txs, read, rfl, rfl⟩, ?_, ?_, ?_⟩
  · intro lane slot priority sealedTx
    rw [(keeps.closed txs after).held_iff, keeps.held_iff, held, pending]
    exact ⟨fun ⟨⟨⟨holds, absent⟩, returns⟩, place⟩ => ⟨⟨holds, place⟩, absent, returns⟩,
      fun ⟨⟨holds, place⟩, absent, returns⟩ => ⟨⟨⟨holds, absent⟩, returns⟩, place⟩⟩
  · simp only [counted, pending, and_assoc]
  · intro sealedTx holds absent
    exact keeps.atTurn sent after ((pending sealedTx).mpr ⟨holds, absent⟩)

end Ledger.Node

/-! ## A transaction that is too late

Three transactions are submitted at the first height. The first one is committed, and the last one must not
be executed any later. -/

namespace Ledger.Expiring

open Node

def transaction (account timeout : UInt64) : SealedTx Tx :=
  let tx := { Tx.transfer (.ofIndex account) 0 0 with messages := [], timeout }
  .ofParts tx (Wire.encode tx)

def first : SealedTx Tx := transaction 1 0

def kept : SealedTx Tx := transaction 2 0

def late : SealedTx Tx := transaction 3 1

def node : Node :=
  [first.bytes, kept.bytes, late.bytes].foldl (fun node bytes => (node.submitBytes bytes).2)
    (.fresh {} 1000 {})

theorem played : Played {} 1000 {} [late.bytes, kept.bytes, first.bytes] node :=
  (Played.start (create_eq_fresh rfl)).submitAll [first.bytes, kept.bytes, late.bytes]

theorem collisionless : Collisionless [late.bytes, kept.bytes, first.bytes] :=
  collisionless_of_nodup (by decide +kernel)

theorem collisionless_block :
    Collisionless ([late.bytes, kept.bytes, first.bytes] ++ [first.bytes]) :=
  collisionless.mono (by simp)

theorem decodable : ∀ entry ∈ [first.bytes], ∃ tx, Wire.codec.decode entry = .ok tx :=
  List.forall_mem_singleton.mpr ⟨first.tx, by decide⟩

theorem reads : ∀ sealedTx ∈ [late, kept, first], Wire.codec.Reads sealedTx := by
  simp only [List.forall_mem_cons]
  exact ⟨rfl, rfl, rfl, by simp⟩

theorem holds_iff {sealedTx : SealedTx Tx} :
    node.registry.Holds sealedTx ↔ sealedTx ∈ [late, kept, first] := by
  constructor
  · intro holds
    obtain ⟨own, sent⟩ := played.keeps.sent_of_holds holds
    have listed : sealedTx.bytes ∈ [late, kept, first].map SealedTx.bytes := sent
    obtain ⟨same, mem, bytes⟩ := List.mem_map.mp listed
    exact (reads same mem).eq_of_bytes_eq own bytes ▸ mem
  · intro mem
    have selected : ∀ sealedTx ∈ [late, kept, first], ∃ lane ∈ node.registry.lanes,
        sealedTx.bytes ∈ lane.select.1.map SealedTx.bytes := by
      decide
    exact played.keeps.holds_of_bytes (reads sealedTx mem) (selected sealedTx mem)

theorem left_iff {sealedTx : SealedTx Tx} :
    node.registry.Holds sealedTx ∧ sealedTx.bytes ∉ [first.bytes] ↔ sealedTx ∈ [late, kept] := by
  have apart : late.bytes ≠ first.bytes ∧ kept.bytes ≠ first.bytes := by
    decide
  simp only [holds_iff, List.mem_cons, List.not_mem_nil, or_false]
  constructor
  · rintro ⟨rfl | rfl | rfl, other⟩
    · exact .inl rfl
    · exact .inr rfl
    · exact absurd rfl other
  · rintro (rfl | rfl)
    · exact ⟨.inl rfl, apart.1⟩
    · exact ⟨.inr (.inl rfl), apart.2⟩

theorem read_block : Registry.readBlock Wire.codec [first.bytes] = .ok [first] := rfl

theorem returns_iff {sealedTx : SealedTx Tx} (mem : sealedTx ∈ [late, kept]) (after : State) :
    (node.opened [first] after).returns (node.leftover [first]) sealedTx = true ↔ sealedTx = kept := by
  have noBid : ∀ sealedTx ∈ [late, kept], Transaction.isBid sealedTx.tx = false := by
    decide
  have pending : sealedTx ∈ node.leftover [first] :=
    (played.keeps.mem_leftover_iff collisionless_block read_block).mpr (left_iff.mpr mem)
  rw [played.keeps.returns_iff collisionless after pending (noBid sealedTx mem)]
  obtain ⟨-, height⟩ := played.keeps.checkState_turn [first] after sealedTx
  have before : node.state.height = 1 := by
    simp only [node, List.foldl_cons, List.foldl_nil, state_submitBytes]
    rfl
  constructor
  · rintro ⟨next, executed⟩
    obtain ⟨_, _, -, -, inTime, -⟩ := Rules.check_eq_ok_iff.mp executed
    rcases List.mem_pair.mp mem with rfl | rfl
    · rw [height, before] at inTime
      exact absurd inTime (by decide)
    · rfl
  · rintro rfl
    exact ⟨_, Rules.check_eq_ok_iff.mpr
      ⟨.ofIndex 2, _, rfl, by simp, .inl rfl, by simp, rfl, rfl⟩⟩

end Ledger.Expiring

namespace Ledger.Node

open Expiring in
theorem commit_accounts_of_late : ∃ evicted next,
    node.commit [first.bytes] node.state = .ok (evicted, next) ∧ evicted = 1 ∧
    (∃ lane slot priority, next.builder.held lane slot = some (priority, kept)) ∧
    (∀ lane slot priority sealedTx, next.builder.held lane slot = some (priority, sealedTx) ↔
      node.builder.held lane slot = some (priority, sealedTx) ∧ sealedTx = kept) ∧
    ∀ sealedTx ∈ [late, kept],
      ((node.opened [first] node.state).turn (node.leftover [first]) sealedTx).AtTurn sealedTx := by
  obtain ⟨txs, evicted, next, read, committed, held, counted, turns⟩ :=
    commit_accounts played collisionless_block decodable node.state
  cases read_block.symm.trans read
  have stays : ∀ lane slot priority sealedTx, next.builder.held lane slot = some (priority, sealedTx) ↔
      node.builder.held lane slot = some (priority, sealedTx) ∧ sealedTx = kept := by
    intro lane slot priority sealedTx
    rw [held]
    constructor
    · rintro ⟨here, absent, returns⟩
      have mem := left_iff.mp ⟨(played.keeps.held_iff.mp here).1, absent⟩
      exact ⟨here, (returns_iff mem node.state).mp returns⟩
    · rintro ⟨here, rfl⟩
      have mem : kept ∈ [late, kept] := by simp
      exact ⟨here, (left_iff.mpr mem).2, (returns_iff mem node.state).mpr rfl⟩
  refine ⟨evicted, next, committed, ?_, ?_, stays, ?_⟩
  · have differ : late ≠ kept := fun same => absurd (congrArg (fun own => own.tx.timeout) same) (by decide)
    have only : {sealedTx | node.registry.Holds sealedTx ∧ sealedTx.bytes ∉ [first.bytes] ∧
        (node.opened [first] node.state).returns (node.leftover [first]) sealedTx = false} = {late} := by
      ext sealedTx
      rw [Set.mem_ofPred_eq, ← and_assoc, left_iff, Set.mem_singleton_iff]
      constructor
      · rintro ⟨mem, refused⟩
        rcases List.mem_pair.mp mem with rfl | rfl
        · rfl
        · rw [(returns_iff mem node.state).mpr rfl] at refused
          cases refused
      · rintro rfl
        have mem : late ∈ [late, kept] := List.mem_cons_self
        exact ⟨mem, Bool.eq_false_iff.mpr fun returns => differ ((returns_iff mem node.state).mp returns)⟩
    rw [only, Set.encard_singleton] at counted
    exact_mod_cast counted
  · obtain ⟨lane, slot, priority, here⟩ :=
      played.keeps.builder.holds_iff.mp (holds_iff.mpr (by simp : kept ∈ [late, kept, first]))
    exact ⟨lane, slot, priority, (stays ..).mpr ⟨here, rfl⟩⟩
  · intro sealedTx mem
    obtain ⟨holds, absent⟩ := left_iff.mpr mem
    exact turns sealedTx holds absent

end Ledger.Node

end BlockBuilder
