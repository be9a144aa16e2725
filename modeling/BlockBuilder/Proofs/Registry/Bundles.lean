import BlockBuilder.Proofs.Builder.Carryover
import BlockBuilder.Proofs.Lane.Isolation
import BlockBuilder.Proofs.Registry.Layout

/-!
# Bundles behind other lanes

A bundle comes into a block with its bid, whoever would accept the transactions on their own. But a
lane in front of the auction takes only what comes first, and accepts nothing that comes later; so a
block that was built around a bid is accepted exactly if no lane in front accepts anything of its
bundle (`Registry.judge_build_iff`).
-/
namespace BlockBuilder

variable {C T : Type} [Transaction T] [BlockState C]

namespace Chain

variable {first second : List (StandardLane C T)} {draft final : Draft} {state other after : C}
  {txs : List (SealedTx T)}

/-! ## Chains one behind the other -/

theorem built_append_iff : Built (first ++ second) draft state txs final after ↔
    ∃ front back extended middle, txs = front ++ back ∧ Built first draft state front extended middle ∧
      Built second extended middle back final after := by
  induction first generalizing draft state txs with
  | nil =>
    constructor
    · intro built
      exact ⟨[], txs, draft, state, rfl, .nil, built⟩
    · rintro ⟨front, back, extended, middle, rfl, built, later⟩
      cases built
      exact later
  | cons lane rest ih =>
    constructor
    · intro built
      obtain _ | ⟨gives, added, later⟩ := built
      obtain ⟨front, back, extended, middle, rfl, built, later⟩ := ih.mp later
      exact ⟨_, back, extended, middle, (List.append_assoc ..).symm, .cons gives added built, later⟩
    · rintro ⟨front, back, extended, middle, rfl, built, later⟩
      obtain _ | ⟨gives, added, built⟩ := built
      rw [List.append_assoc]
      exact .cons gives added (ih.mpr ⟨_, _, _, _, rfl, built, later⟩)

theorem claimed_append_iff (ignores : ∀ lane ∈ first, lane.IgnoresState) :
    Claimed (first ++ second) draft state txs final after ↔
      ∃ front back extended middle, txs = front ++ back ∧
        Claimed first draft state front extended middle ∧
        (∀ lane ∈ first, ∀ sealedTx ∈ back, lane.accepts state sealedTx.tx = false) ∧
        Claimed second extended middle back final after := by
  induction first generalizing draft state txs with
  | nil =>
    constructor
    · intro claimed
      exact ⟨[], txs, draft, state, rfl, .nil, by simp, claimed⟩
    · rintro ⟨front, back, extended, middle, rfl, claimed, -, later⟩
      cases claimed
      exact later
  | cons lane rest ih =>
    obtain ⟨-, ignoresRest⟩ := List.forall_mem_cons.mp ignores
    constructor
    · intro claimed
      obtain _ | ⟨takes, refused, added, later⟩ := claimed
      obtain ⟨front, back, extended, middle, rfl, claimed, refusedLater, later⟩ :=
        (ih ignoresRest).mp later
      obtain ⟨refusedFront, refusedBack⟩ := List.forall_mem_append.mp refused
      refine ⟨_, back, extended, middle, (List.append_assoc ..).symm,
        .cons takes refusedFront added claimed, List.forall_mem_cons.mpr ⟨refusedBack, ?_⟩, later⟩
      intro behind mem sealedTx among
      exact (ignoresRest behind mem ..).trans (refusedLater behind mem sealedTx among)
    · rintro ⟨front, back, extended, middle, rfl, claimed, refused, later⟩
      obtain _ | ⟨takes, refusedFront, added, claimed⟩ := claimed
      obtain ⟨refusedBack, refusedLater⟩ := List.forall_mem_cons.mp refused
      rw [List.append_assoc]
      refine .cons takes (List.forall_mem_append.mpr ⟨refusedFront, refusedBack⟩) added ?_
      refine (ih ignoresRest).mpr ⟨_, _, _, _, rfl, claimed, ?_, later⟩
      intro behind mem sealedTx among
      exact (ignoresRest behind mem ..).trans (refusedLater behind mem sealedTx among)

/-! ## An auction between general lanes -/

variable {lanes before behind : List (GeneralLane C T)} {auction : AuctionLane C T}
  {front top last : List (SealedTx T)} {sealedTx : SealedTx T}

theorem Built.exists_accepts (built : Built (lanes.map .general) draft state txs final after)
    (mem : sealedTx ∈ txs) : ∃ lane ∈ lanes, ∃ state, lane.accepts state sealedTx.tx = true := by
  induction lanes generalizing draft state txs with
  | nil =>
    cases built
    cases mem
  | cons lane rest ih =>
    obtain _ | ⟨gives, added, later⟩ := built
    rcases List.mem_append.mp mem with own | other
    · exact ⟨lane, List.mem_cons_self, GeneralLane.Gives.accepted gives sealedTx own⟩
    · obtain ⟨owner, listed, accepts⟩ := ih later other
      exact ⟨owner, List.mem_cons_of_mem lane listed, accepts⟩

theorem Claimed.exists_accepts (claimed : Claimed (lanes.map .general) draft state txs final after)
    (mem : sealedTx ∈ txs) : ∃ lane ∈ lanes, ∃ state, lane.accepts state sealedTx.tx = true := by
  induction lanes generalizing draft state txs with
  | nil =>
    cases claimed
    cases mem
  | cons lane rest ih =>
    obtain _ | ⟨takes, refused, added, later⟩ := claimed
    rcases List.mem_append.mp mem with own | other
    · exact ⟨lane, List.mem_cons_self, _, GeneralLane.Takes.accepted takes sealedTx own⟩
    · obtain ⟨owner, listed, accepts⟩ := ih later other
      exact ⟨owner, List.mem_cons_of_mem lane listed, accepts⟩

def around (before : List (GeneralLane C T)) (auction : AuctionLane C T)
    (behind : List (GeneralLane C T)) : List (StandardLane C T) :=
  before.map .general ++ .auction auction :: behind.map .general

/-- The parts that lanes around an auction build, with the drafts and the states between them. -/
structure Parts (before : List (GeneralLane C T)) (auction : AuctionLane C T)
    (behind : List (GeneralLane C T)) (draft : Draft) (state : C) (front top last : List (SealedTx T))
    (final : Draft) (after : C) : Prop where
  exists_built : ∃ extended opened middle next,
    Built (before.map .general) draft state front extended middle ∧
    BidPart auction.settings auction.terms auction.funds middle top next ∧
    extended.add AuctionLane.name auction.share top = .ok opened ∧
    Built (behind.map .general) opened next last final after

theorem exists_parts_of_built (built : Built (around before auction behind) draft state txs final after) :
    ∃ front top last, txs = front ++ (top ++ last) ∧
      Parts before auction behind draft state front top last final after := by
  obtain ⟨front, back, extended, middle, rfl, ahead, later⟩ := built_append_iff.mp built
  obtain _ | ⟨gives, added, later⟩ := later
  exact ⟨front, _, _, rfl, ⟨_, _, _, _, ahead, AuctionLane.Gives.part gives, added, later⟩⟩

omit [Transaction T] [BlockState C] in
theorem mem_second_of_split {first : SealedTx T} {others taken rest : List (SealedTx T)}
    (split : front ++ first :: others = taken ++ rest) (untaken : first ∉ taken) :
    ∀ sealedTx ∈ first :: others, sealedTx ∈ rest := by
  rcases List.append_eq_append_iff.mp split with ⟨more, same, later⟩ | ⟨more, -, same⟩
  · cases more with
    | nil =>
      rw [later]
      exact fun sealedTx mem => mem
    | cons next more =>
      cases later
      rw [same] at untaken
      exact absurd (List.mem_append_right front List.mem_cons_self) untaken
  · rw [same]
    exact fun sealedTx mem => List.mem_append_right more mem

section Around

variable (ignores : ∀ lane ∈ around before auction behind, lane.IgnoresState)
include ignores

theorem Parts.exists_claimed (parts : Parts before auction behind draft state front top last final after)
    (respects : ∀ lane ∈ around before auction behind, Respects lane.settings.verifier SameBlock)
    (ignore : auction.funds.IgnorePhase)
    (apart : (around before auction behind).Pairwise fun lane later => ∀ sealedTx,
      later.pool.Holds sealedTx → ∀ state, lane.accepts state sealedTx.tx = false)
    (same : SameBlock state other)
    (clear : ∀ lane ∈ before, ∀ sealedTx ∈ top, lane.accepts state sealedTx.tx = false) :
    ∃ otherAfter, Claimed (around before auction behind) draft other (front ++ (top ++ last)) final
      otherAfter := by
  obtain ⟨extended, opened, middle, next, ahead, part, added, later⟩ := parts.exists_built
  obtain ⟨ignoresBefore, ignoresLater⟩ := List.forall_mem_append.mp ignores
  obtain ⟨respectsBefore, respectsLater⟩ := List.forall_mem_append.mp respects
  obtain ⟨respectsAuction, respectsBehind⟩ := List.forall_mem_cons.mp respectsLater
  obtain ⟨apartBefore, apartLater, across⟩ := List.pairwise_append.mp apart
  obtain ⟨apartAuction, apartBehind⟩ := List.pairwise_cons.mp apartLater
  -- each part in turn, on the state that the other side has reached by then
  obtain ⟨otherMiddle, claimed, same⟩ := ahead.exists_claimed (List.forall_mem_map.mp ignoresBefore)
    (List.forall_mem_map.mp respectsBefore) (List.pairwise_map.mp apartBefore) same
  obtain ⟨otherNext, otherPart, sameNext⟩ := part.agrees respectsAuction same same.targetHeight_eq
    (ignore _ _ same.toSameButPhase)
  obtain ⟨otherAfter, claimedLater, -⟩ := later.exists_claimed
    (List.forall_mem_map.mp (List.forall_mem_cons.mp ignoresLater).2)
    (List.forall_mem_map.mp respectsBehind) (List.pairwise_map.mp apartBehind) sameNext
  have noBids : ∀ sealedTx ∈ last, Transaction.isBid sealedTx.tx = false := by
    intro sealedTx mem
    obtain ⟨owner, listed, holds⟩ := later.offers sealedTx mem
    obtain ⟨general, -, rfl⟩ := List.mem_map.mp listed
    exact apartAuction _ listed sealedTx holds other
  refine ⟨otherAfter, (claimed_append_iff ignoresBefore).mpr
    ⟨front, top ++ last, extended, otherMiddle, rfl, claimed, ?_,
      .cons (AuctionLane.takes_of_bidPart otherPart) noBids added claimedLater⟩⟩
  intro lane listed sealedTx mem
  obtain ⟨general, among, rfl⟩ := List.mem_map.mp listed
  rcases List.mem_append.mp mem with mem | mem
  · exact (ignoresBefore _ listed ..).trans (clear general among sealedTx mem)
  · obtain ⟨owner, behindListed, holds⟩ := later.offers sealedTx mem
    have offered := across _ listed owner (List.mem_cons_of_mem _ behindListed) sealedTx
    obtain ⟨other, -, rfl⟩ := List.mem_map.mp behindListed
    exact offered holds _

theorem clear_of_claimed
    (rejects : ∀ lane ∈ before, ∀ state tx, Transaction.isBid tx = true → lane.accepts state tx = false)
    (part : BidPart auction.settings auction.terms auction.funds state top after) {start final : Draft}
    {current left : C}
    (claimed : Claimed (around before auction behind) start current (front ++ (top ++ last)) final left) :
    ∀ lane ∈ before, ∀ sealedTx ∈ top, lane.accepts current sealedTx.tx = false := by
  obtain ⟨ignoresBefore, -⟩ := List.forall_mem_append.mp ignores
  obtain ⟨taken, rest, extended, middle, split, ahead, refused, -⟩ :=
    (claimed_append_iff ignoresBefore).mp claimed
  cases part with
  | nothing => simp
  | @bid bidTx bid bundle _ holds =>
    -- no lane in front takes the bid, so all of them are done before it
    have untaken : bidTx ∉ taken := by
      intro mem
      obtain ⟨lane, among, state, accepts⟩ := ahead.exists_accepts mem
      rw [rejects lane among state bidTx.tx holds.isBid] at accepts
      cases accepts
    intro lane among sealedTx mem
    have left : sealedTx ∈ rest := mem_second_of_split split untaken sealedTx (List.mem_append_left last mem)
    exact List.forall_mem_map.mp refused lane among sealedTx left

theorem Parts.claimed_iff (parts : Parts before auction behind draft state front top last final after)
    (rejects : ∀ lane ∈ before, ∀ state tx, Transaction.isBid tx = true → lane.accepts state tx = false)
    (respects : ∀ lane ∈ around before auction behind, Respects lane.settings.verifier SameBlock)
    (ignore : auction.funds.IgnorePhase)
    (apart : (around before auction behind).Pairwise fun lane later => ∀ sealedTx,
      later.pool.Holds sealedTx → ∀ state, lane.accepts state sealedTx.tx = false)
    (same : SameBlock state other) :
    ((∃ given left, Claimed (around before auction behind) draft other (front ++ (top ++ last)) given
        left) ↔
      ∀ lane ∈ before, ∀ sealedTx ∈ top, lane.accepts other sealedTx.tx = false) ∧
    ∀ given left, Claimed (around before auction behind) draft other (front ++ (top ++ last)) given
      left → given = final := by
  have needed {given : Draft} {left : C} (claimed : Claimed (around before auction behind) draft other
      (front ++ (top ++ last)) given left) :
      ∀ lane ∈ before, ∀ sealedTx ∈ top, lane.accepts other sealedTx.tx = false := by
    obtain ⟨_, _, _, _, -, part, -⟩ := parts.exists_built
    exact clear_of_claimed ignores rejects part claimed
  have enough (clear : ∀ lane ∈ before, ∀ sealedTx ∈ top, lane.accepts other sealedTx.tx = false) :
      ∃ left, Claimed (around before auction behind) draft other (front ++ (top ++ last)) final left := by
    apply parts.exists_claimed ignores respects ignore apart same
    intro lane mem sealedTx among
    have ignoring := ignores (.general lane) (List.mem_append_left _ (List.mem_map_of_mem mem))
    exact (ignoring ..).trans (clear lane mem sealedTx among)
  refine ⟨⟨?_, fun clear => ⟨final, enough clear⟩⟩, ?_⟩
  · rintro ⟨given, left, claimed⟩
    exact needed claimed
  · intro given left claimed
    -- a chain judges a block in one way only
    obtain ⟨other, again⟩ := enough (needed claimed)
    have agree := (judge_eq_ok_iff.mpr claimed).symm.trans (judge_eq_ok_iff.mpr again)
    cases agree
    rfl

end Around

omit [BlockState C] [Transaction T] in
theorem exists_around_of_bare {filled : List (StandardLane C T)}
    (same : filled.map StandardLane.bare = (around before auction behind).map StandardLane.bare) :
    ∃ front pool back, filled = around front { auction with pool } back ∧
      (front.map StandardLane.general).map StandardLane.bare =
        (before.map StandardLane.general).map StandardLane.bare := by
  rw [around, List.map_append, List.map_cons] at same
  obtain ⟨front, rest, rfl, sameFront, sameRest⟩ := List.map_eq_append_iff.mp same
  obtain ⟨middle, back, rfl, sameMiddle, sameBack⟩ := List.map_eq_cons_iff.mp sameRest
  obtain ⟨front, rfl⟩ := StandardLane.exists_general_of_bare sameFront
  obtain ⟨back, rfl⟩ := StandardLane.exists_general_of_bare sameBack
  cases middle with
  | general lane => cases sameMiddle
  | auction lane =>
    obtain ⟨settings, terms, funds, pool⟩ := lane
    cases sameMiddle
    exact ⟨front, pool, back, rfl, sameFront⟩

omit [BlockState C] in
theorem forall_accepts_iff_of_bare {filled : List (GeneralLane C T)}
    (same : (filled.map StandardLane.general).map StandardLane.bare =
      (before.map StandardLane.general).map StandardLane.bare) (kept : (C → T → Bool) → Prop) :
    (∀ lane ∈ filled, kept lane.accepts) ↔ ∀ lane ∈ before, kept lane.accepts := by
  let keeps (lane : StandardLane C T) : Prop := kept fun state tx => lane.accepts state tx
  have agrees (lane : StandardLane C T) : keeps lane.bare ↔ keeps lane := by
    simp only [keeps, StandardLane.accepts_bare]
  have iff := StandardLane.forall_mem_iff_of_bare same agrees
  rwa [List.forall_mem_map, List.forall_mem_map] at iff

omit [BlockState C] in
theorem reads_of_offers {codec : Codec T} (rereads : codec.Rereads) (same : auction.settings.codec = codec)
    (reads : ∀ lane ∈ around before auction behind, ∀ sealedTx, lane.pool.Holds sealedTx →
      codec.Reads sealedTx) {lane : StandardLane C T} (mem : lane ∈ around before auction behind)
    (offers : lane.Offers sealedTx) : codec.Reads sealedTx := by
  have filled : StandardLane.FilledWith codec.Reads lane.bare lane := ⟨rfl, reads lane mem⟩
  rcases List.mem_append.mp mem with ahead | later
  · obtain ⟨general, -, rfl⟩ := List.mem_map.mp ahead
    exact filled.kept sealedTx offers
  · rcases List.mem_cons.mp later with rfl | rest
    · exact filled.reads_of_offers rereads same offers
    · obtain ⟨general, -, rfl⟩ := List.mem_map.mp rest
      exact filled.kept sealedTx offers

theorem Parts.forall_not_isBid
    (parts : Parts before auction behind draft state front top last final after)
    (rejects : ∀ lane ∈ before, ∀ state tx, Transaction.isBid tx = true → lane.accepts state tx = false)
    (apart : (around before auction behind).Pairwise fun lane later => ∀ sealedTx,
      later.pool.Holds sealedTx → ∀ state, lane.accepts state sealedTx.tx = false) :
    ∀ sealedTx ∈ front ++ last, Transaction.isBid sealedTx.tx = false := by
  obtain ⟨_, _, _, _, ahead, -, -, later⟩ := parts.exists_built
  have apartAuction := (List.pairwise_cons.mp (List.pairwise_append.mp apart).2.1).1
  rw [List.forall_mem_append]
  constructor
  · intro sealedTx mem
    obtain ⟨lane, among, accepting, accepts⟩ := ahead.exists_accepts mem
    cases bid : Transaction.isBid sealedTx.tx with
    | false => rfl
    | true =>
      rw [rejects lane among accepting sealedTx.tx bid] at accepts
      cases accepts
  · intro sealedTx mem
    obtain ⟨owner, listed, offers⟩ := later.offers sealedTx mem
    obtain ⟨general, -, rfl⟩ := List.mem_map.mp listed
    exact apartAuction _ listed sealedTx offers state

end Chain

namespace Registry

open Chain

variable {before behind : List (GeneralLane C T)} {auction : AuctionLane C T}
  {start : Registry (StandardLane C T)}

/-- A block that was built around a bid is accepted, and as it was built, exactly if no lane in front
of the auction accepts anything of the bid's bundle. -/
theorem judge_build_iff (made : ofLanes (around before auction behind) = .ok start)
    (blank : ∀ lane ∈ start.lanes, ∃ policy, lane.pool = .empty policy)
    (ignores : ∀ lane ∈ start.lanes, lane.IgnoresState)
    (rejects : ∀ lane ∈ before, ∀ state tx, Transaction.isBid tx = true → lane.accepts state tx = false)
    (respects : ∀ lane ∈ start.lanes, Respects lane.settings.verifier SameBlock)
    (ignore : auction.funds.IgnorePhase) (rereads : auction.settings.codec.Rereads)
    {calls : List (Call C T)} (reads : ∀ sealedTx ∈ newcomers calls, auction.settings.codec.Reads sealedTx)
    {state other : C} (same : SameBlock state other) (limit : Nat) :
    ∃ draft front top last, ((start.run calls).build state limit).result = .ok draft ∧
      readBlock auction.settings.codec draft.txs = .ok (front ++ (top ++ last)) ∧
      (∃ middle after, BidPart auction.settings auction.terms auction.funds middle top after) ∧
      (∀ sealedTx ∈ front ++ last, Transaction.isBid sealedTx.tx = false) ∧
      ((∃ final after, ((start.run calls).judge limit (front ++ (top ++ last))).outcome other =
          (.ok final, after)) ↔
        ∀ lane ∈ before, ∀ sealedTx ∈ top, lane.accepts other sealedTx.tx = false) ∧
      ∀ final after, ((start.run calls).judge limit (front ++ (top ++ last))).outcome other =
        (.ok final, after) → final = draft := by
  obtain ⟨lanes, -⟩ := ofLanes_eq_ok made
  have bare := (evolves_run start calls).map_bare
  have apart := apart_run calls blank ignores
  have ignoresFilled := ignoresState_run calls ignores
  have respectsFilled : ∀ lane ∈ (start.run calls).lanes, Respects lane.settings.verifier SameBlock := by
    refine (StandardLane.forall_mem_iff_of_bare bare fun lane => ?_).mpr respects
    rw [StandardLane.settings_bare]
  have readable : ∀ lane ∈ (start.run calls).lanes, ∀ sealedTx, lane.pool.Holds sealedTx →
      auction.settings.codec.Reads sealedTx := fun lane mem sealedTx holds =>
    reads_run blank reads mem holds
  obtain ⟨txs, draft, ok, built⟩ := (start.run calls).built_build state limit
  have bytes : draft.txs = txs.map SealedTx.bytes := by simpa [Draft.empty] using built.bytes
  -- the lanes are still around the same auction, and accept what they did
  obtain ⟨ahead, pool, rest, filled, sameAhead⟩ := exists_around_of_bare (bare.trans (congrArg _ lanes))
  have rejectsFilled := (forall_accepts_iff_of_bare sameAhead
    fun accepts => ∀ state tx, Transaction.isBid tx = true → accepts state tx = false).mpr rejects
  rw [filled] at built apart ignoresFilled respectsFilled readable
  obtain ⟨front, top, last, rfl, parts⟩ := exists_parts_of_built built
  obtain ⟨iff, unique⟩ := parts.claimed_iff ignoresFilled rejectsFilled respectsFilled ignore apart same
  refine ⟨draft, front, top, last, ok, ?_, ?_, parts.forall_not_isBid rejectsFilled apart, ?_, ?_⟩
  · rw [bytes]
    refine readBlock_map_bytes fun sealedTx mem => ?_
    obtain ⟨lane, listed, offers⟩ := built.offers sealedTx mem
    refine reads_of_offers rereads ?_ readable listed offers
    rfl
  · obtain ⟨_, _, middle, after, -, part, -⟩ := parts.exists_built
    exact ⟨middle, after, part⟩
  · rw [← forall_accepts_iff_of_bare sameAhead
      fun accepts => ∀ sealedTx ∈ top, accepts other sealedTx.tx = false, judge, filled]
    simp only [judge_eq_ok_iff]
    exact iff
  · rw [judge, filled]
    simp only [judge_eq_ok_iff]
    exact unique

end Registry

/-! ## A bundle that another lane would accept

The builder's lanes, the general one in front of the auction. -/

namespace Shadowed

open Chain Ledger Registry

def ahead : GeneralLane State Tx := Builder.generalLane {} HeldUp.codec (Rules.verifier {})

/-- Leaves whatever the first account signs to others, too. -/
def reserved : GeneralLane State Tx :=
  { ahead with exclusions := ahead.exclusions ++ [fun _ tx => Transaction.sender? tx == some (.ofIndex 1)] }

def start (front : GeneralLane State Tx) : Registry (StandardLane State Tx) :=
  ⟨around [front] (HeldUp.lane (.empty {})) []⟩

def calls : List (Call State Tx) := [.insert (HeldUp.state .check) HeldUp.low]

section Lanes

variable {front : GeneralLane State Tx} (listed : front ∈ [ahead, reserved])
include listed

theorem made : ofLanes (start front).lanes = .ok (start front) := by
  have names : checkLanes [] (start front).lanes = .ok () := by
    rcases List.mem_pair.mp listed with rfl | rfl <;> rfl
  have shares : Share.fitsBlock ((start front).lanes.map BlockLane.share) = true := by
    rcases List.mem_pair.mp listed with rfl | rfl <;> decide
  rw [ofLanes, names, shares]
  rfl

theorem blank : ∀ lane ∈ (start front).lanes, ∃ policy, lane.pool = .empty policy := by
  intro lane mem
  rcases List.mem_pair.mp mem with rfl | rfl
  · rcases List.mem_pair.mp listed with rfl | rfl <;> exact ⟨{}, rfl⟩
  · exact ⟨{}, rfl⟩

theorem ignores : ∀ lane ∈ (start front).lanes, lane.IgnoresState := by
  intro lane mem
  rcases List.mem_pair.mp mem with rfl | rfl
  · rcases List.mem_pair.mp listed with rfl | rfl <;> exact fun _ _ _ => rfl
  · exact fun _ _ _ => rfl

theorem rejects : ∀ lane ∈ [front], ∀ state tx, Transaction.isBid tx = true →
    lane.accepts state tx = false := by
  rw [List.forall_mem_singleton]
  intro state tx bid
  rcases List.mem_pair.mp listed with rfl | rfl <;>
    simp [GeneralLane.accepts, reserved, ahead, Builder.generalLane, bid]

theorem respects : ∀ lane ∈ (start front).lanes, Respects lane.settings.verifier SameBlock := by
  intro lane mem
  rcases List.mem_pair.mp mem with rfl | rfl
  · rcases List.mem_pair.mp listed with rfl | rfl <;> exact Rules.verifier_respects_sameBlock
  · exact Rules.verifier_respects_sameBlock

end Lanes

theorem reads : ∀ sealedTx ∈ newcomers calls, HeldUp.codec.Reads sealedTx :=
  List.forall_mem_singleton.mpr rfl

theorem same : SameBlock (HeldUp.state .prepare) (HeldUp.state .process) :=
  ⟨State.same_withPhase (HeldUp.state .prepare) .prepare .process, rfl⟩

section Blocks

variable {front : GeneralLane State Tx} (listed : front ∈ [ahead, reserved])
include listed

theorem exists_lanes : ∃ pool,
    ((start front).run calls).lanes = [.general front, .auction (HeldUp.lane pool)] ∧
      pool.select.1 = [HeldUp.low] := by
  obtain ⟨pool, lanes, order⟩ : ∃ pool, ((start front).run calls).lanes =
      [.general front, .auction (HeldUp.lane pool)] ∧ pool.select.1.map SealedTx.bytes = [[3]] := by
    rcases List.mem_pair.mp listed with rfl | rfl <;> exact ⟨_, rfl, by decide⟩
  refine ⟨pool, lanes, eq_of_map_bytes_eq (fun sealedTx mem => ?_) reads order⟩
  have inside : .auction (HeldUp.lane pool) ∈ ((start front).run calls).lanes := by simp [lanes]
  exact reads_run (blank listed) reads inside (.of_mem_select mem)

theorem build_result : (((start front).run calls).build (HeldUp.state .prepare) 1000).result =
    .ok ((Draft.empty 1000).append AuctionLane.name [HeldUp.low, HeldUp.bundled]) := by
  obtain ⟨pool, lanes, selected⟩ := exists_lanes listed
  obtain ⟨bid, after, -, verified, -⟩ := HeldUp.low_verified .prepare (by decide)
  rw [← AuctionLane.verifyBid_withPool _ pool] at verified
  have opened : (HeldUp.lane pool).opening 1000 (HeldUp.state .prepare) (HeldUp.lane pool).pool.select.1 =
      ⟨[], (Draft.empty 1000).append AuctionLane.name [HeldUp.low, HeldUp.bundled], after⟩ := by
    show (HeldUp.lane pool).opening 1000 (HeldUp.state .prepare) pool.select.1 = _
    rw [selected]
    have fits : Draft.bytesOf [HeldUp.low, HeldUp.bundled] ≤
        (Draft.empty 1000).allowance (HeldUp.lane (.empty {})).share := by decide
    exact AuctionLane.opening_cons_of_verified [] rfl verified fits
  -- there is nothing in the general lane, so the auction starts on an empty draft
  have idle : (StandardLane.general front).contribute (.empty 1000)
      ((Draft.empty 1000).allowance front.settings.limits.share) (HeldUp.state .prepare) =
        ⟨.ok (.empty 1000), .general front, HeldUp.state .prepare⟩ := by
    rcases List.mem_pair.mp listed with rfl | rfl <;> rfl
  unfold Registry.build
  rw [lanes, Chain.build_cons]
  simp only [StandardLane.settings, idle, Attempt.behind]
  rw [Chain.build_cons]
  simp only [StandardLane.settings, AuctionLane.contribute_opening, opened, Attempt.behind, Chain.build_nil]

end Blocks

theorem judge_misplaced (state : State) :
    (((start ahead).run calls).judge 1000 [HeldUp.low, HeldUp.bundled]).outcome state =
      (.error (.misplaced GeneralLane.defaultName HeldUp.bundled.digest), state) := by
  rw [judge_run]
  rfl

end Shadowed

namespace Registry

open Ledger Shadowed in
theorem judge_build_iff_of_shadowed : (∃ draft front top last,
    (((start ahead).run calls).build (HeldUp.state .prepare) 1000).result = .ok draft ∧
    readBlock HeldUp.codec draft.txs = .ok (front ++ (top ++ last)) ∧
    (∃ middle after, BidPart (HeldUp.lane (.empty {})).settings (HeldUp.lane (.empty {})).terms State.funds
      middle top after) ∧
    (∀ sealedTx ∈ front ++ last, Transaction.isBid sealedTx.tx = false) ∧
    ((∃ final after, (((start ahead).run calls).judge 1000 (front ++ (top ++ last))).outcome
        (HeldUp.state .process) = (.ok final, after)) ↔
      ∀ lane ∈ [ahead], ∀ sealedTx ∈ top, lane.accepts (HeldUp.state .process) sealedTx.tx = false) ∧
    ∀ final after, (((start ahead).run calls).judge 1000 (front ++ (top ++ last))).outcome
      (HeldUp.state .process) = (.ok final, after) → final = draft) ∧
    ∃ draft after, (((start reserved).run calls).build (HeldUp.state .prepare) 1000).result = .ok draft ∧
      readBlock HeldUp.codec draft.txs = .ok [HeldUp.low, HeldUp.bundled] ∧
      (((start reserved).run calls).judge 1000 [HeldUp.low, HeldUp.bundled]).outcome
        (HeldUp.state .process) = (.ok draft, after) := by
  constructor
  · have listed : ahead ∈ [ahead, reserved] := by simp
    exact judge_build_iff (made listed) (blank listed) (ignores listed) (rejects listed)
      (respects listed) State.funds_ignorePhase HeldUp.canonical_codec.rereads reads same 1000
  · have listed : reserved ∈ [ahead, reserved] := by simp
    obtain ⟨draft, front, top, last, built, read, -, -, iff, unique⟩ :=
      judge_build_iff (made listed) (blank listed) (ignores listed) (rejects listed)
        (respects listed) State.funds_ignorePhase HeldUp.canonical_codec.rereads reads same 1000
    obtain rfl := Except.ok.inj (built.symm.trans (build_result listed))
    have parts : front ++ (top ++ last) = [HeldUp.low, HeldUp.bundled] := by
      have whole : readBlock HeldUp.codec [[3], [0]] = .ok [HeldUp.low, HeldUp.bundled] := rfl
      exact Except.ok.inj (read.symm.trans whole)
    rw [parts] at iff unique
    obtain ⟨final, after, accepted⟩ := iff.mpr <| by
      rw [List.forall_mem_singleton]
      intro sealedTx mem
      have inside : sealedTx ∈ [HeldUp.low, HeldUp.bundled] :=
        parts ▸ List.mem_append_right front (List.mem_append_left last mem)
      rcases List.mem_pair.mp inside with rfl | rfl <;> rfl
    obtain rfl := unique final after accepted
    exact ⟨_, after, built, rfl, accepted⟩

open Chain Ledger Shadowed in
/-- So a registry can refuse the block that it built. -/
theorem exists_bundle_misplaced :
    ofLanes (around [ahead] (HeldUp.lane (.empty {})) []) = .ok (Shadowed.start ahead) ∧
      (∀ state tx, Transaction.isBid tx = true → ahead.accepts state tx = false) ∧
      (∀ lane ∈ (Shadowed.start ahead).lanes,
        lane.IgnoresState ∧ Respects lane.settings.verifier SameBlock) ∧
      State.funds.IgnorePhase ∧ HeldUp.codec.Rereads ∧
      (∀ sealedTx ∈ newcomers Shadowed.calls, HeldUp.codec.Reads sealedTx) ∧
      SameBlock (HeldUp.state .prepare) (HeldUp.state .process) ∧
      ∃ draft, (((Shadowed.start ahead).run Shadowed.calls).build (HeldUp.state .prepare) 1000).result =
          .ok draft ∧
        readBlock HeldUp.codec draft.txs = .ok [HeldUp.low, HeldUp.bundled] ∧
        ∀ final after, (((Shadowed.start ahead).run Shadowed.calls).judge 1000
          [HeldUp.low, HeldUp.bundled]).outcome (HeldUp.state .process) ≠ (.ok final, after) := by
  have listed : ahead ∈ [ahead, reserved] := by simp
  refine ⟨made listed, rejects listed ahead List.mem_cons_self, ?_, State.funds_ignorePhase,
    HeldUp.canonical_codec.rereads, reads, same, _, build_result listed, rfl, ?_⟩
  · exact fun lane mem => ⟨ignores listed lane mem, respects listed lane mem⟩
  · intro final after accepted
    cases (judge_misplaced _).symm.trans accepted

end Registry

end BlockBuilder
