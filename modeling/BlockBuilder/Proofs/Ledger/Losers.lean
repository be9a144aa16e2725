import BlockBuilder.Proofs.Auction.Acceptance
import BlockBuilder.Proofs.Builder.Soundness
import BlockBuilder.Proofs.Ledger.Commits

/-!
# Bids that lose

A bid that is submitted again competes with the bid at the top of its lane, unless it is at the top
itself. So of the bids that a block leaves out, those that are still valid stay pending if and only if
they are at the top at their turn or exceed the top by the increment (`loser_stays_iff`); the others are
evicted, valid as they are (`Losing.valid_loser_evicted`).
-/
namespace BlockBuilder

theorem Admission.verifyBid_eq_ok_iff_of_none {C T : Type} [Transaction T] [BlockState C]
    {rules : Admission C T} {state next : C} {tx : T} {bid : Bid} {highest : Option Coin} :
    rules.verifyBid state tx bid highest = .ok next ↔
      rules.verifyBid state tx bid none = .ok next ∧
        rules.terms.checkIncrement bid.price highest = .ok () := by
  simp only [verifyBid_eq_ok_iff, Terms.accept_eq_ok_iff]
  constructor
  · rintro ⟨⟨timely, small, denom, reserve, outbids, payable, fair⟩, executed⟩
    exact ⟨⟨⟨timely, small, denom, reserve, rfl, payable, fair⟩, executed⟩, outbids⟩
  · rintro ⟨⟨⟨timely, small, denom, reserve, -, payable, fair⟩, executed⟩, outbids⟩
    exact ⟨⟨timely, small, denom, reserve, outbids, payable, fair⟩, executed⟩

/-! ## A run with a losing bid

Bids of 100 and 200 are submitted after an empty block is proposed, and then the block is committed. -/

namespace Ledger.Losing

def bid (account amount : UInt64) : Bid where
  bidder := .ofIndex account
  price := ⟨denom, amount⟩
  bundle := [Wire.encode { Tx.transfer (.ofIndex account) 1 0 with messages := [] }]
  timeout := 9
  signers := [{.ofIndex account}]

def offer (bid : Bid) : SealedTx Tx :=
  let tx : Tx := { Tx.bid bid.bidder 0 bid.price.amount bid.bundle with timeout := bid.timeout }
  .ofParts tx (Wire.encode tx)

def low : SealedTx Tx := offer (bid 1 100)

def high : SealedTx Tx := offer (bid 2 200)

theorem low_made : Bid.ofTx? Wire.codec low.tx = .ok (some (bid 1 100)) := rfl

theorem high_made : Bid.ofTx? Wire.codec high.tx = .ok (some (bid 2 200)) := rfl

def admission : Admission State Tx := ⟨Wire.codec, Rules.verifier {}, Config.terms {}, State.funds⟩

def start : Node := ((Node.fresh {} 1000 {}).fund 1 1000).fund 2 1000

def after : State := start.propose.2.1

def node : Node :=
  [low.bytes, high.bytes].foldl (fun node bytes => (node.submitBytes bytes).2) start.propose.2.2

theorem played : Node.Played {} 1000 {} [high.bytes, low.bytes] node := by
  have funded : Node.Played {} 1000 {} [] start :=
    ((Node.Played.start (Node.create_eq_fresh rfl)).fund 1 1000).fund 2 1000
  exact funded.propose.submitAll [low.bytes, high.bytes]

theorem differ : high.digest ≠ low.digest := by
  decide +kernel

theorem collisionless : Collisionless [high.bytes, low.bytes] := by
  have hashes : sha256 high.bytes ≠ sha256 low.bytes := by
    rw [← high.digest_eq, ← low.digest_eq]
    exact differ
  simp [Collisionless, hashes, hashes.symm]

theorem reads : ∀ sealedTx ∈ [high, low], Wire.codec.Reads sealedTx := by
  simp only [List.forall_mem_cons]
  exact ⟨rfl, rfl, by simp⟩

theorem bytes_select : node.builder.registry.lanes.map (fun lane => lane.select.1.map SealedTx.bytes) =
    [[high.bytes, low.bytes], []] := by
  decide +kernel

theorem exists_pools : ∃ bids others, node.registry.lanes =
      [.auction { Builder.auctionLane {} Wire.codec (Rules.verifier {}) State.funds with pool := bids },
        .general { Builder.generalLane {} Wire.codec (Rules.verifier {}) with pool := others }] ∧
    bids.Aligned ∧ bids.select.1 = [high, low] ∧ others.select.1 = [] := by
  obtain ⟨bids, others, lanes, auction, general, aligned, -⟩ :=
    played.keeps.builder.lanes_of_bytes [high, low] [] bytes_select reads
  rw [Node.registry]
  exact ⟨bids, others, lanes, aligned, auction, general⟩

theorem leftover : node.leftover [] = [high, low] := by
  obtain ⟨bids, others, lanes, -, auction, general⟩ := exists_pools
  rw [Node.leftover_nil, Registry.select, lanes]
  simp only [List.map_cons, List.map_nil, List.flatMap_cons, List.flatMap_nil, StandardLane.select_fst,
    StandardLane.pool, auction, general, List.append_nil]

theorem exists_lane : ∃ lane : AuctionLane State Tx,
    .auction lane ∈ (node.opened [] after).registry.lanes ∧ lane.pool.select.1 = [high, low] := by
  obtain ⟨bids, others, lanes, aligned, auction, -⟩ := exists_pools
  rw [Node.lanes_opened_nil, lanes]
  exact ⟨_, List.mem_cons_self, aligned.alike_settle.select_eq.symm.trans auction⟩

def rechecked : State := { after with height := 2, phase := .recheck }

theorem checkState_opened : (node.opened [] after).checkState = rechecked := by
  have unchanged : node.state = start.propose.2.2.state := by
    rw [node, List.foldl_cons, List.foldl_cons, List.foldl_nil, Node.state_submitBytes,
      Node.state_submitBytes]
  rw [Node.checkState_opened, unchanged]
  rfl

theorem exists_passed : ∃ second passed,
    admission.verifyBid (node.opened [] after).checkState high.tx (bid 2 200) none = .ok second ∧
      admission.verifyBid second low.tx (bid 1 100) none = .ok passed := by
  rw [checkState_opened]
  have valid : ((admission.verifyBid rechecked high.tx (bid 2 200) none).bind
      fun second => admission.verifyBid second low.tx (bid 1 100) none).isOk = true := by
    decide
  cases first : admission.verifyBid rechecked high.tx (bid 2 200) none with
  | error cause =>
    rw [first] at valid
    cases valid
  | ok second =>
    rw [first, Except.bind] at valid
    cases last : admission.verifyBid second low.tx (bid 1 100) none with
    | error cause =>
      rw [last] at valid
      cases valid
    | ok passed => exact ⟨second, passed, rfl, last⟩

theorem left_of_mem {sealedTx : SealedTx Tx} (mem : sealedTx ∈ [high, low]) :
    sealedTx ∈ node.leftover [] ∧ node.registry.Holds sealedTx := by
  rw [← leftover] at mem
  have sent : Collisionless ([high.bytes, low.bytes] ++ []) := collisionless
  have read : Registry.readBlock Wire.codec [] = .ok [] := rfl
  exact ⟨mem, ((played.keeps.mem_leftover_iff sent read).mp mem).1⟩

end Ledger.Losing

namespace Ledger.Node

variable {config : Config} {byteLimit : Nat} {rules : Rules} {submissions block : List Bytes}
  {node again : Node} {sealedTx : SealedTx Tx} {bid : Bid} {lane : AuctionLane State Tx}
  {next passed : State}

/-! ## The bid at the top -/

def Contends (node : Node) (sealedTx : SealedTx Tx) (bid : Bid) : Prop :=
  ∃ lane top topBid, .auction lane ∈ node.registry.lanes ∧ lane.pool.select.1.head? = some top ∧
    Bid.ofTx? Wire.codec top.tx = .ok (some topBid) ∧ (top = sealedTx ∨
      topBid.price.amount.toNat + node.builder.rules.terms.increment.amount.toNat ≤
        bid.price.amount.toNat)

theorem Keeps.exists_auction (keeps : node.Keeps config rules submissions)
    (holds : node.registry.Holds sealedTx) (isBid : Transaction.isBid sealedTx.tx = true) :
    ∃ lane general, node.registry.lanes = [.auction lane, .general general] ∧
      lane.pool.Holds sealedTx := by
  obtain ⟨bids, others, lanes, -, stocked⟩ := keeps.builder.lanes
  obtain ⟨lane, mem, held⟩ := holds
  rw [show node.registry.lanes = _ from lanes] at mem ⊢
  rcases List.mem_pair.mp mem with rfl | rfl
  · exact ⟨_, _, rfl, held⟩
  · obtain ⟨_, -, noBid⟩ := stocked.of_holds held
    rw [if_neg Nat.one_ne_zero, isBid] at noBid
    cases noBid

theorem Keeps.select_eq_of_holds_iff {other : Node} (keeps : node.Keeps config rules submissions)
    (keeps' : other.Keeps config rules submissions)
    (same : ∀ sealedTx, other.registry.Holds sealedTx ↔ node.registry.Holds sealedTx)
    {lane' : AuctionLane State Tx} (auction : .auction lane ∈ node.registry.lanes)
    (auction' : .auction lane' ∈ other.registry.lanes) : lane'.pool.select.1 = lane.pool.select.1 := by
  obtain ⟨⟨_, lanes⟩, -, stocked⟩ := keeps.builder.auction auction
  obtain ⟨⟨_, lanes'⟩, -, stocked'⟩ := keeps'.builder.auction auction'
  apply stocked'.aligned.select_eq_of_holding_eq stocked.aligned
  apply Std.ExtHashMap.ext_getElem?
  intro slot
  rw [← Builder.held_auction lanes', ← Builder.held_auction lanes]
  exact keeps.held_eq_of_holds_iff keeps' same AuctionLane.name slot

theorem Keeps.denom_of_made (keeps : node.Keeps config rules submissions)
    (auction : .auction lane ∈ node.registry.lanes) (holds : lane.pool.Holds sealedTx)
    (made : Bid.ofTx? Wire.codec sealedTx.tx = .ok (some bid)) :
    bid.price.denom = config.terms.increment.denom := by
  obtain ⟨bids, others, lanes, sound, -⟩ :=
    keeps.builder.lanes_of fun _ reached _ _ _ => reached.sound_of_screened
  obtain rfl : lane = { Builder.auctionLane config Wire.codec rules.verifier State.funds with
    pool := bids } := by
    rw [show node.registry.lanes = _ from lanes] at auction
    simpa using auction
  -- a pending bid was accepted, in the denomination of the reserve, and so is the increment
  obtain ⟨-, offer, priced, -⟩ := sound.of_holds holds
  have single := priced.single
  rw [(Bid.ofTx?_eq_some_iff.mp made).single] at single
  cases single
  obtain ⟨increment, -⟩ := Terms.check_eq_ok_iff.mp (Config.terms_of_check keeps.builder.settled.1)
  exact priced.denom.trans increment.symm

theorem Keeps.topPrice_cases (keeps : node.Keeps config rules submissions)
    (collisionless : Collisionless submissions) (phase : node.checkState.phase = .recheck)
    (holds : node.registry.Holds sealedTx) (isBid : Transaction.isBid sealedTx.tx = true) :
    ∃ lane general top topBid, node.registry.lanes = [.auction lane, .general general] ∧
      lane.pool.Holds sealedTx ∧ lane.pool.select.1.head? = some top ∧
      Bid.ofTx? Wire.codec top.tx = .ok (some topBid) ∧
      topBid.price.denom = config.terms.increment.denom ∧
      (top.digest = sealedTx.digest → top = sealedTx) ∧
      node.builder.rules.topPrice node.registry node.checkState sealedTx.digest =
        (if top.digest = sealedTx.digest then none else some topBid.price,
          ⟨[.auction lane.select.2, .general general]⟩) := by
  obtain ⟨lane, general, lanes, held⟩ := keeps.exists_auction holds isBid
  have auction : .auction lane ∈ node.builder.registry.lanes := lanes ▸ List.mem_cons_self
  obtain ⟨-, -, stocked⟩ := keeps.builder.auction auction
  have submission : (BlockState.phase node.checkState).isSubmission = true := by
    rw [show BlockState.phase node.checkState = _ from phase]
    rfl
  cases head : lane.pool.select.1 with
  | nil =>
    have selected := stocked.aligned.mem_select_iff.mpr held
    rw [head] at selected
    cases selected
  | cons top rest =>
    have topHeld : lane.pool.Holds top := .of_mem_select (head ▸ List.mem_cons_self)
    obtain ⟨-, -, topBid, made, -⟩ := stocked.of_holds topHeld
    have denom := keeps.denom_of_made auction topHeld made
    refine ⟨lane, general, top, topBid, lanes, held, by rw [head]; rfl, made, denom,
      keeps.eq_of_digest_eq collisionless ⟨_, auction, topHeld⟩ holds, ?_⟩
    rw [Admission.topPrice_of_auction lanes submission, keeps.builder.settled.2, head]
    by_cases same : top.digest = sealedTx.digest
    · rw [if_pos same, List.head?_cons, Option.filter_some, if_neg (by simpa using same)]
      rfl
    · rw [if_neg same, List.head?_cons, Option.filter_some, if_pos (decide_eq_true same),
        Option.bind_some, made]
      rfl

theorem Keeps.checkIncrement_topPrice_iff (keeps : node.Keeps config rules submissions)
    (collisionless : Collisionless submissions) (phase : node.checkState.phase = .recheck)
    (holds : node.registry.Holds sealedTx)
    (made : Bid.ofTx? Wire.codec sealedTx.tx = .ok (some bid)) :
    node.builder.rules.terms.checkIncrement bid.price
        (node.builder.rules.topPrice node.registry node.checkState sealedTx.digest).1 = .ok () ↔
      node.Contends sealedTx bid := by
  obtain ⟨lane, general, top, topBid, lanes, held, head, topMade, denom, unique, price⟩ :=
    keeps.topPrice_cases collisionless phase holds (isBid_of_made made)
  have auction : .auction lane ∈ node.registry.lanes := lanes ▸ List.mem_cons_self
  rw [price, Terms.checkIncrement_eq_ok_iff]
  constructor
  · intro outbids
    refine ⟨lane, top, topBid, auction, head, topMade, ?_⟩
    -- the bid at the top has nothing to exceed, and its digest tells that it is at the top
    by_cases same : top.digest = sealedTx.digest
    · exact .inl (unique same)
    · exact .inr (outbids topBid.price (if_neg same)).2
  · rintro ⟨lane', top', topBid', auction', head', topMade', contends⟩ highest given
    obtain rfl : lane' = lane := by
      rw [lanes] at auction'
      simpa using auction'
    cases head.symm.trans head'
    cases topMade.symm.trans topMade'
    split at given
    · cases given
    · rename_i other
      cases given
      rw [keeps.builder.settled.2] at contends ⊢
      rcases contends with rfl | above
      · exact absurd rfl other
      · exact ⟨denom, above⟩

/-! ## Bids that are submitted again -/

theorem Keeps.exists_insert (keeps : node.Keeps config rules submissions)
    (auction : .auction lane ∈ node.registry.lanes) (holds : lane.pool.Holds sealedTx)
    (isBid : Transaction.isBid sealedTx.tx = true) (others : List (StandardLane State Tx))
    (next : State) :
    ∃ registry, Registry.insert ⟨.auction lane.select.2 :: others⟩ next sealedTx = .ok registry := by
  obtain ⟨-, -, stocked⟩ := keeps.builder.auction auction
  obtain ⟨pool, inserted⟩ :
      ∃ pool, lane.pool.settle.insert (AuctionLane.priority sealedTx.tx) sealedTx = .ok pool := by
    refine stocked.aligned.settle.exists_insert_of_holds ?_ (Pool.holds_settle_iff.mpr holds) _
    rw [stocked.aligned.policy_settle]
    exact keeps.mayReplace auction
  have accepts : BlockLane.accepts (StandardLane.auction lane.select.2) next sealedTx.tx = true := isBid
  have entered : BlockLane.insert (StandardLane.auction lane.select.2) next sealedTx =
      .ok (.auction { lane with pool }) := by
    refine (StandardLane.insert_eq ..).trans ?_
    rw [StandardLane.pool, StandardLane.priorityOf, show lane.select.2.pool = lane.pool.settle from rfl,
      inserted]
    rfl
  rw [Registry.insert, Registry.insertFirst, if_pos accepts, entered]
  exact ⟨_, rfl⟩

theorem Keeps.submitBytes_of_contends (keeps : node.Keeps config rules submissions)
    (collisionless : Collisionless submissions) (phase : node.checkState.phase = .recheck)
    (holds : node.registry.Holds sealedTx)
    (made : Bid.ofTx? Wire.codec sealedTx.tx = .ok (some bid))
    (valid : node.builder.rules.verifyBid node.checkState sealedTx.tx bid none = .ok passed)
    (contends : node.Contends sealedTx bid) :
    ∃ again, node.submitBytes sealedTx.bytes = (.ok sealedTx.digest, again) ∧
      again.checkState = passed := by
  have isBid := isBid_of_made made
  have codec : node.builder.rules.codec = Wire.codec := by rw [keeps.builder.settled.2]
  obtain ⟨lane, general, top, topBid, lanes, held, -, -, -, -, price⟩ :=
    keeps.topPrice_cases collisionless phase holds isBid
  have outbids := (keeps.checkIncrement_topPrice_iff collisionless phase holds made).mpr contends
  have verified := Admission.verifyBid_eq_ok_iff_of_none.mpr ⟨valid, outbids⟩
  have screened : node.builder.rules.screen node.registry node.checkState sealedTx =
      (.ok passed, ⟨[.auction lane.select.2, .general general]⟩) := by
    rw [price] at verified
    simp only [Admission.screen, codec, made, price, verified]
  obtain ⟨registry, entered⟩ :=
    keeps.exists_insert (lanes ▸ List.mem_cons_self) held isBid [.general general] passed
  have admitted := (keeps.submit_eq_ok_iff collisionless holds).mpr ⟨_, screened, entered, rfl⟩
  refine ⟨_, by rw [Node.submitBytes, admitted], rfl⟩

theorem Keeps.contends_of_submitBytes (keeps : node.Keeps config rules submissions)
    (collisionless : Collisionless submissions) (phase : node.checkState.phase = .recheck)
    (holds : node.registry.Holds sealedTx)
    (made : Bid.ofTx? Wire.codec sealedTx.tx = .ok (some bid))
    (admitted : (node.submitBytes sealedTx.bytes).1.isOk = true) : node.Contends sealedTx bid := by
  rw [← keeps.checkIncrement_topPrice_iff collisionless phase holds made]
  rcases answered : node.builder.rules.submit node.registry node.checkState sealedTx.bytes with
    ⟨cause | ⟨digest, next⟩, registry⟩
  · simp [Node.submitBytes, answered, Except.isOk, Except.toBool] at admitted
  · obtain ⟨middle, screened, -⟩ := (keeps.submit_eq_ok_iff collisionless holds).mp answered
    have screened := Admission.screen_eq_ok_iff.mp (congrArg Prod.fst screened)
    rw [show node.builder.rules.codec = Wire.codec by rw [keeps.builder.settled.2], made] at screened
    obtain ⟨noBid, -⟩ | ⟨bid, same, verified⟩ := screened
    · cases noBid
    · cases same
      exact (Admission.verifyBid_eq_ok_iff_of_none.mp verified).2

theorem Keeps.holds_closed_iff_contends (keeps : node.Keeps config rules submissions)
    (collisionless : Collisionless submissions) {txs : List (SealedTx Tx)} (after : State)
    (mem : sealedTx ∈ node.leftover txs)
    (made : Bid.ofTx? Wire.codec sealedTx.tx = .ok (some bid)) :
    let turn := (node.opened txs after).turn (node.leftover txs) sealedTx
    turn.builder.rules.verifyBid turn.checkState sealedTx.tx bid none = .ok passed →
      ((node.closed txs after).registry.Holds sealedTx ↔ turn.Contends sealedTx bid) := by
  intro turn valid
  obtain ⟨-, held⟩ := keeps.closed_run collisionless txs after
  have atTurn := keeps.atTurn collisionless after mem
  obtain ⟨turned, -⟩ := keeps.turn_of_leftover collisionless after mem
  rw [held]
  constructor
  · rintro ⟨-, returns⟩
    exact turned.contends_of_submitBytes collisionless atTurn.phase atTurn.pending made returns
  · intro contends
    obtain ⟨again, admitted, -⟩ :=
      turned.submitBytes_of_contends collisionless atTurn.phase atTurn.pending made valid contends
    refine ⟨mem, ?_⟩
    rw [returns, admitted]
    rfl

/-- Of the bids that a block leaves out, one that is valid at its turn, without a rival, stays pending
if and only if it is then the first bid or exceeds the first bid by the increment. -/
theorem loser_stays_iff (played : Played config byteLimit rules submissions node)
    (collisionless : Collisionless (submissions ++ block)) {after : State} {evicted : Nat} {again : Node}
    (committed : node.commit block after = .ok (evicted, again))
    (pending : node.registry.Holds sealedTx) (absent : sealedTx.bytes ∉ block)
    (made : Bid.ofTx? Wire.codec sealedTx.tx = .ok (some bid)) :
    ∃ txs, Registry.readBlock Wire.codec block = .ok txs ∧
      let turn := (node.opened txs after).turn (node.leftover txs) sealedTx
      ∀ passed, turn.builder.rules.verifyBid turn.checkState sealedTx.tx bid none = .ok passed →
        (again.registry.Holds sealedTx ↔ turn.Contends sealedTx bid) := by
  have sent := collisionless.mono (List.subset_append_left submissions block)
  obtain ⟨txs, read, -, rfl⟩ := commit_eq_ok_iff.mp committed
  have mem := (played.keeps.mem_leftover_iff collisionless read).mpr ⟨pending, absent⟩
  exact ⟨txs, read, fun passed => played.keeps.holds_closed_iff_contends sent after mem made⟩

end Ledger.Node

namespace Ledger.Losing

theorem high_contends : (node.opened [] after).Contends high (bid 2 200) := by
  obtain ⟨lane, auction, selected⟩ := exists_lane
  exact ⟨lane, high, bid 2 200, auction, by rw [selected]; rfl, high_made, .inl rfl⟩

theorem turn_high : (node.opened [] after).turn (node.leftover []) high = node.opened [] after := by
  rw [leftover, Node.turn_cons_self]

theorem high_stays : ∃ evicted again, node.commit [] after = .ok (evicted, again) ∧
    again.registry.Holds high := by
  obtain ⟨second, -, valid, -⟩ := exists_passed
  obtain ⟨-, pending⟩ := left_of_mem (List.mem_cons_self : high ∈ [high, low])
  have committed : node.commit [] after = .ok (_, node.closed [] after) :=
    Node.commit_eq_ok_iff.mpr ⟨[], rfl, rfl, rfl⟩
  refine ⟨_, _, committed, ?_⟩
  obtain ⟨txs, read, stays⟩ :=
    Node.loser_stays_iff played collisionless committed pending List.not_mem_nil high_made
  cases read
  rw [admission, ← (played.keeps.opened [] after).builder.settled.2] at valid
  rw [turn_high] at stays
  exact (stays second valid).mpr high_contends

theorem turn_low {second : State}
    (valid : admission.verifyBid (node.opened [] after).checkState high.tx (bid 2 200) none = .ok second) :
    ((node.opened [] after).turn (node.leftover []) low).checkState = second ∧
      ¬((node.opened [] after).turn (node.leftover []) low).Contends low (bid 1 100) := by
  have keeps := played.keeps.opened [] after
  rw [admission, ← keeps.builder.settled.2] at valid
  obtain ⟨left, -⟩ := left_of_mem (List.mem_cons_self : high ∈ [high, low])
  have holds := (played.keeps.holds_opened_iff collisionless [] after).mpr left
  obtain ⟨again, admitted, reached⟩ := keeps.submitBytes_of_contends collisionless
    (node.phase_opened [] after) holds high_made valid high_contends
  -- the other bid is pending as before, and therefore first as before
  have keeps' := keeps.submitBytes_of_mem (keeps.sent_of_holds holds).2
  have same := keeps.holds_submitBytes_iff collisionless holds
  rw [admitted] at keeps' same
  have turn : (node.opened [] after).turn (node.leftover []) low = again := by
    rw [leftover, Node.turn_cons_of_ne differ, Node.turn_cons_self, Node.recheck_of_admitted admitted]
  rw [turn]
  refine ⟨reached, ?_⟩
  rintro ⟨lane', top, topBid, auction', head, made, contends⟩
  obtain ⟨lane, auction, selected⟩ := exists_lane
  rw [keeps.select_eq_of_holds_iff keeps' same auction auction', selected] at head
  cases head
  cases high_made.symm.trans made
  rw [keeps'.builder.settled.2] at contends
  rcases contends with equal | outbids
  · exact differ (congrArg SealedTx.digest equal)
  · revert outbids
    decide

/-- The bid of 100 is valid at its turn, and evicted all the same, since the other one is still there. -/
theorem valid_loser_evicted : start.propose.1 = [] ∧ start.propose.2.1 = after ∧
    Node.Played {} 1000 {} [high.bytes, low.bytes] node ∧ ∃ evicted again passed,
      node.commit [] after = .ok (evicted, again) ∧ node.registry.Holds low ∧
      Bid.ofTx? Wire.codec low.tx = .ok (some (bid 1 100)) ∧
      (let turn := (node.opened [] after).turn (node.leftover []) low
       turn.builder.rules.verifyBid turn.checkState low.tx (bid 1 100) none = .ok passed) ∧
      ¬again.registry.Holds low := by
  obtain ⟨second, passed, valid, validNext⟩ := exists_passed
  obtain ⟨left, pending⟩ := left_of_mem (List.mem_cons_of_mem high (List.mem_singleton_self low))
  obtain ⟨reached, loses⟩ := turn_low valid
  obtain ⟨turned, -⟩ := played.keeps.turn_of_leftover collisionless after left
  have validAtTurn : ((node.opened [] after).turn (node.leftover []) low).builder.rules.verifyBid
      ((node.opened [] after).turn (node.leftover []) low).checkState low.tx (bid 1 100) none =
        .ok passed := by
    rw [reached, turned.builder.settled.2]
    exact validNext
  have committed : node.commit [] after = .ok (_, node.closed [] after) :=
    Node.commit_eq_ok_iff.mpr ⟨[], rfl, rfl, rfl⟩
  refine ⟨by decide, rfl, played, _, _, passed, committed, pending, low_made, validAtTurn, ?_⟩
  rw [played.keeps.holds_closed_iff_contends collisionless after left low_made validAtTurn]
  exact loses

end Ledger.Losing

end BlockBuilder
