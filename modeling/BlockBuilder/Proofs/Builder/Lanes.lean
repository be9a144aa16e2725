import BlockBuilder.Builder
import BlockBuilder.Config.Document
import BlockBuilder.Proofs.Lane.Claim
import BlockBuilder.Proofs.Lane.Filling

namespace BlockBuilder

variable {C T : Type} [Transaction T] [BlockState C]

namespace AuctionLane

variable (lane : AuctionLane C T) (pool : Pool T UInt64)

omit [BlockState C] in
theorem verifyBundle_withPool (seen : List Digest) (position : Nat) (entries : List Bytes) :
    AuctionLane.verifyBundle { lane with pool } seen position entries =
      lane.verifyBundle seen position entries := by
  induction entries generalizing seen position with
  | nil => rfl
  | cons entry rest ih => simp only [verifyBundle, ih]

theorem verifyBid_withPool (bidTx : SealedTx T) :
    AuctionLane.verifyBid { lane with pool } bidTx = lane.verifyBid bidTx := by
  have bid : AuctionLane.bidOf { lane with pool } bidTx = lane.bidOf bidTx := rfl
  simp only [verifyBid, verifyBundle_withPool, bid]

theorem claim_withPool (draft : Draft) (txs : List (SealedTx T)) :
    AuctionLane.claim { lane with pool } draft txs = lane.claim draft txs := by
  have share : AuctionLane.share { lane with pool } = lane.share := rfl
  cases txs with
  | nil => rfl
  | cons first rest => simp only [claim, verifyBid_withPool, share]

theorem choose_withPool (draft : Draft) (limit : Nat) (state : C) (bids : List (SealedTx T)) :
    AuctionLane.choose { lane with pool } draft limit state bids =
      lane.choose draft limit state bids := by
  have share : AuctionLane.share { lane with pool } = lane.share := rfl
  induction bids with
  | nil => rfl
  | cons bidTx rest ih => simp only [choose, verifyBid_withPool, ih, share]

theorem contribute_eq (draft : Draft) (limit : Nat) (state : C) :
    lane.contribute draft limit state =
      let choice := lane.choose draft limit state lane.pool.select.1
      ⟨.ok choice.draft, { lane with pool := lane.pool.settle.removeAll choice.dead }, choice.state⟩ := by
  rw [← lane.choose_withPool lane.pool.settle]
  rfl

end AuctionLane

omit [Transaction T] [BlockState C] in
theorem GeneralLane.pick_withPool (lane : GeneralLane C T) (pool : Pool T UInt64) (draft : Draft)
    (limit : Nat) (txs : List (SealedTx T)) (size : Nat) (state : C) :
    GeneralLane.pick { lane with pool } draft limit txs size state =
      lane.pick draft limit txs size state := by
  have accepts : GeneralLane.accepts { lane with pool } = lane.accepts := rfl
  induction txs generalizing size state with
  | nil => rfl
  | cons sealedTx rest ih => simp only [pick, accepts, ih]

omit [Transaction T] [BlockState C] in
theorem GeneralLane.contribute_eq (lane : GeneralLane C T) (draft : Draft) (limit : Nat) (state : C) :
    lane.contribute draft limit state =
      let picks := lane.pick draft limit lane.pool.select.1 0 state
      ⟨draft.add lane.name lane.settings.limits.share picks.chosen,
        { lane with pool := lane.pool.settle.removeAll picks.dead }, picks.state⟩ := by
  rw [← lane.pick_withPool lane.pool.settle]
  rfl

theorem StandardLane.claim_bare (lane : StandardLane C T) (draft : Draft)
    (txs : List (SealedTx T)) :
    BlockLane.claim lane.bare draft txs = BlockLane.claim lane draft txs := by
  cases lane with
  | auction lane => exact lane.claim_withPool _ draft txs
  | general lane => rfl

theorem Chain.judge_map_bare (lanes : List (StandardLane C T)) (draft : Draft)
    (txs : List (SealedTx T)) :
    judge (lanes.map StandardLane.bare) draft txs = judge lanes draft txs := by
  induction lanes generalizing draft txs with
  | nil => rfl
  | cons lane rest ih => simp only [List.map_cons, judge, StandardLane.claim_bare, ih]

theorem Registry.review_eq_of_bare {registry : Registry (StandardLane C T)}
    {blanks : List (StandardLane C T)} (bare : registry.lanes.map StandardLane.bare = blanks)
    (codec : Codec T) (state : C) (block : List Bytes) :
    registry.review codec state block = Registry.review ⟨blanks⟩ codec state block := by
  simp only [review, judge, ← bare, Chain.judge_map_bare]

theorem Config.shares_of_check {config : Config} (checked : config.check = .ok ()) :
    config.auctionLane.share.isProper = true ∧ config.defaultLane.share.isProper = true ∧
      Share.fitsBlock [config.auctionLane.share, config.defaultLane.share] = true := by
  simp only [check, checkShare, throwUnless_eq_ok_iff, bind_eq_ok_iff] at checked
  obtain ⟨_, auction, _, general, fits, -⟩ := checked
  refine ⟨?_, ?_, fits⟩
  · by_contra improper
    simp [improper] at auction
  · by_contra improper
    simp [improper] at general

theorem Config.terms_of_check {config : Config} (checked : config.check = .ok ()) :
    config.terms.check = .ok () := by
  simp only [check, throwUnless_eq_ok_iff, bind_eq_ok_iff] at checked
  obtain ⟨-, -, -, -, -, terms⟩ := checked
  exact terms

theorem Config.load_eq_ok_iff {read : String → Except ReadFault Bytes} {path : String} {config : Config} :
    load read path = .ok config ↔
      ∃ bytes document, read path = .ok bytes ∧ Utf8.decode? bytes = some document ∧
        (Toml.parse? document).bind ofValue? = some config ∧ config.check = .ok () := by
  unfold load parse
  constructor
  · intro loaded
    split at loaded
    · cases loaded
    · rename_i bytes found
      split at loaded
      · cases loaded
      · rename_i document decoded
        split at loaded
        · cases loaded
        · rename_i parsed
          obtain ⟨_, checked, rfl⟩ := map_eq_ok_iff.mp loaded
          exact ⟨bytes, document, found, decoded, parsed, checked⟩
  · rintro ⟨bytes, document, found, decoded, parsed, checked⟩
    simp [found, decoded, parsed, checked, Except.map]

namespace Builder

def laneSettings (codec : Codec T) (verifier : Verifier C T) (limits : LaneLimits) :
    LaneSettings C T := ⟨codec, some verifier, limits⟩

def auctionLane (config : Config) (codec : Codec T) (verifier : Verifier C T) (funds : Funds C) :
    AuctionLane C T where
  settings := laneSettings codec verifier config.auctionLane
  terms := config.terms
  funds := funds
  pool := .empty {}

def generalLane (config : Config) (codec : Codec T) (verifier : Verifier C T) :
    GeneralLane C T where
  name := GeneralLane.defaultName
  settings := laneSettings codec verifier config.defaultLane
  pool := .empty {}
  exclusions := [fun _ tx => Transaction.isBid tx]

def bareLanes (config : Config) (codec : Codec T) (verifier : Verifier C T) (funds : Funds C) :
    List (StandardLane C T) :=
  [.auction (auctionLane config codec verifier funds), .general (generalLane config codec verifier)]

variable {config : Config} {codec : Codec T} {verifier : Verifier C T} {funds : Funds C}
  {builder start : Builder C T}

omit [BlockState C] in
theorem generalLane_accepts_eq (state : C) (tx : T) :
    (generalLane config codec verifier).accepts state tx = !Transaction.isBid tx := by
  simp [GeneralLane.accepts, generalLane]

def fresh (config : Config) (codec : Codec T) (verifier : Verifier C T) (funds : Funds C) :
    Builder C T where
  registry := ⟨[
    .auction { auctionLane config codec verifier funds with
      pool := (laneSettings codec verifier config.auctionLane).emptyPool },
    .general { generalLane config codec verifier with
      pool := (laneSettings codec verifier config.defaultLane).emptyPool }]⟩
  rules := ⟨codec, verifier, config.terms, funds⟩

theorem ofConfig_of_check (checked : config.check = .ok ()) (codec : Codec T)
    (verifier : Verifier C T) (funds : Funds C) :
    ofConfig config codec verifier funds = .ok (fresh config codec verifier funds) := by
  obtain ⟨auction, general, fits⟩ := Config.shares_of_check checked
  simp [ofConfig, checked, AuctionLane.create, GeneralLane.create, LaneSettings.check, auction,
    general, Registry.ofLanes, Registry.checkLanes, BlockLane.share, BlockLane.name,
    StandardLane.settings, AuctionLane.name, GeneralLane.defaultName, fits, bind, Except.bind, pure,
    Except.pure, mapError_ok, fresh, auctionLane, generalLane, laneSettings]

theorem ofConfig_eq_ok_iff :
    ofConfig config codec verifier funds = .ok start ↔
      config.check = .ok () ∧ start = fresh config codec verifier funds := by
  constructor
  · intro made
    have checked : config.check = .ok () := by
      unfold ofConfig at made
      rw [bind_eq_ok_iff] at made
      obtain ⟨_, passed, -⟩ := made
      exact mapError_eq_ok_iff.mp passed
    rw [ofConfig_of_check checked, Except.ok.injEq] at made
    exact ⟨checked, made.symm⟩
  · rintro ⟨checked, rfl⟩
    exact ofConfig_of_check checked codec verifier funds

/-- A configuration that no builder can work under is not even loaded. -/
theorem ofConfig_of_load {read : String → Except ReadFault Bytes} {path : String}
    (loaded : Config.load read path = .ok config) (codec : Codec T) (verifier : Verifier C T)
    (funds : Funds C) : ofConfig config codec verifier funds = .ok (fresh config codec verifier funds) := by
  obtain ⟨-, -, -, -, -, checked⟩ := Config.load_eq_ok_iff.mp loaded
  exact ofConfig_of_check checked codec verifier funds

/-- A builder that was set up from a configuration, whatever its lanes hold by now. -/
def MadeFrom (config : Config) (codec : Codec T) (verifier : Verifier C T) (funds : Funds C)
    (builder : Builder C T) : Prop :=
  ∃ start, ofConfig config codec verifier funds = .ok start ∧ builder.rules = start.rules ∧
    builder.registry.lanes.map StandardLane.bare = start.registry.lanes.map StandardLane.bare

theorem MadeFrom.of_bare (checked : config.check = .ok ())
    (rules : builder.rules = ⟨codec, verifier, config.terms, funds⟩)
    (bare : builder.registry.lanes.map StandardLane.bare = bareLanes config codec verifier funds) :
    builder.MadeFrom config codec verifier funds :=
  ⟨fresh config codec verifier funds, ofConfig_of_check checked codec verifier funds, rules, bare⟩

theorem MadeFrom.bare (made : builder.MadeFrom config codec verifier funds) :
    builder.registry.lanes.map StandardLane.bare = bareLanes config codec verifier funds := by
  obtain ⟨start, ok, -, bare⟩ := made
  obtain ⟨-, rfl⟩ := ofConfig_eq_ok_iff.mp ok
  exact bare

theorem MadeFrom.rules_eq (made : builder.MadeFrom config codec verifier funds) :
    builder.rules = ⟨codec, verifier, config.terms, funds⟩ := by
  obtain ⟨start, ok, rules, -⟩ := made
  obtain ⟨-, rfl⟩ := ofConfig_eq_ok_iff.mp ok
  exact rules

theorem MadeFrom.lanes (made : builder.MadeFrom config codec verifier funds) :
    ∃ bids others, builder.registry.lanes =
      [.auction { auctionLane config codec verifier funds with pool := bids },
        .general { generalLane config codec verifier with pool := others }] := by
  obtain ⟨first, rest, lanes, firstBare, restBare⟩ := List.map_eq_cons_iff.mp made.bare
  obtain ⟨second, others, rfl, secondBare, othersBare⟩ := List.map_eq_cons_iff.mp restBare
  cases List.map_eq_nil_iff.mp othersBare
  cases first with
  | general lane => cases firstBare
  | auction lane =>
    cases second with
    | auction other => cases secondBare
    | general other =>
      injection firstBare with firstBare
      injection secondBare with secondBare
      exact ⟨lane.pool, other.pool, by rw [lanes, ← firstBare, ← secondBare]⟩

end Builder

end BlockBuilder
