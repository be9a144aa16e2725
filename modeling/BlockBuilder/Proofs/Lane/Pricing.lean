import Mathlib.Data.List.Nodup
import BlockBuilder.Ledger.State
import BlockBuilder.Proofs.Auction.Rule
import BlockBuilder.Proofs.Lane.Filling
import BlockBuilder.Proofs.Pool.Origin
import BlockBuilder.Proofs.Pool.Precedence

/-!
# The price at the top of an auction lane

An auction lane gives the price of the first bid in its order of selection for the highest one. Whatever
is called on the lane, it holds its transactions under the prices that they offer (`stocked_run`). But the
order of selection also keeps every sender's transactions in sequence, and what comes first exceeds, of
every sender, only some transaction that the others of the sender wait for
(`Pool.Stocked.exists_leads_of_prices`). So the first price is the highest where no bid waits for less
(`highestBid_run`), and need not be elsewhere (`exists_highestBid_below_maximum`).
-/
namespace BlockBuilder

variable {C T : Type} [Transaction T]

/-! ## The order of selection -/

/-- The pool holds the first transaction, which is of the second's sender and no later in sequence. -/
structure Pool.Leads {V : Type} [Ord V] (pool : Pool T V) (leader sealedTx : SealedTx T) : Prop where
  held : pool.Holds leader
  sender : Transaction.sender? leader.tx = Transaction.sender? sealedTx.tx
  reached : Transaction.sequence leader.tx ≤ Transaction.sequence sealedTx.tx

theorem Pool.Stocked.exists_leads_of_prices {pool : Pool T UInt64} {allowed : UInt64 → SealedTx T → Prop}
    (stocked : pool.Stocked allowed)
    (prices : ∀ price sealedTx, allowed price sealedTx → price = AuctionLane.priority sealedTx.tx)
    {before rest : List (SealedTx T)} {first sealedTx : SealedTx T}
    (split : pool.select.1 = before ++ first :: rest) (mem : sealedTx ∈ first :: rest) :
    ∃ leader, pool.Leads leader sealedTx ∧
      AuctionLane.priority leader.tx ≤ AuctionLane.priority first.tx := by
  have aligned := stocked.aligned
  obtain ⟨low, ranked, ⟨signed, reached⟩, priority, known, below⟩ :=
    aligned.exists_leads_of_select split mem
  obtain ⟨entry, found, same⟩ := aligned.exists_entryAt ranked
  obtain ⟨sender, place⟩ := SealedTx.slot?_eq_some_iff.mp (aligned.seated found)
  refine ⟨entry.sealedTx, ⟨holds_of_entryAt found, sender.trans signed.symm, place ▸ reached⟩, ?_⟩
  have own : entry.priority = low.priority := congrArg Rank.priority same
  have held : pool.Holds first := .of_mem_select (split ▸ List.mem_append_right before List.mem_cons_self)
  obtain ⟨slot, other, there, meant, rfl⟩ := aligned.exists_of_holds held
  rw [priority?, meant, Option.bind_some, there, Option.map_some, Option.some.injEq] at known
  rw [← prices _ _ (stocked.of_entry found), ← prices _ _ (stocked.of_entry there), own, known]
  exact Std.isLE_compare.mp below

namespace AuctionLane

variable {lane start : AuctionLane C T} {exclude : Digest} {sealedTx : SealedTx T} {bid : Bid}

/-! ## Calls -/

inductive Call (C T : Type) where
  | insert (sealedTx : SealedTx T)
  | remove (digest : Digest)
  | select
  | highestBid (exclude : Digest)
  | contribute (draft : Draft) (limit : Nat) (state : C)

def perform [BlockState C] (lane : AuctionLane C T) : Call C T → AuctionLane C T
  | .insert sealedTx => (lane.insert sealedTx).toOption.getD lane
  | .remove digest => (lane.remove digest).toOption.getD lane
  | .select => lane.select.2
  | .highestBid exclude => (lane.highestBid exclude).2
  | .contribute draft limit state => (lane.contribute draft limit state).lanes

def run [BlockState C] (lane : AuctionLane C T) (calls : List (Call C T)) : AuctionLane C T :=
  calls.foldl perform lane

def Becomes (lane after : AuctionLane C T) : Prop :=
  ∃ operations : List (Pool.Operation T UInt64),
    (∀ price sealedTx, .insert price sealedTx ∈ operations → price = priority sealedTx.tx) ∧
      after = { lane with pool := lane.pool.run operations }

theorem becomes_perform [BlockState C] (lane : AuctionLane C T) (call : Call C T) :
    lane.Becomes (lane.perform call) := by
  cases call with
  | insert sealedTx =>
    refine ⟨[.insert (priority sealedTx.tx) sealedTx], by simp, ?_⟩
    simp only [perform, insert, Pool.run, List.foldl_cons, List.foldl_nil, Pool.perform]
    cases lane.pool.insert (priority sealedTx.tx) sealedTx <;> rfl
  | remove digest =>
    refine ⟨[.remove digest], by simp, ?_⟩
    simp only [perform, remove, Pool.run, List.foldl_cons, List.foldl_nil, Pool.perform]
    cases lane.pool.remove digest <;> rfl
  | select => exact ⟨[.select], by simp, rfl⟩
  | highestBid exclude => exact ⟨[.select], by simp, rfl⟩
  | contribute draft limit state =>
    obtain ⟨dead, same⟩ := (StandardLane.auction lane).contribute_eq_run draft limit state
    exact ⟨.settle :: dead.map .remove, by simp, StandardLane.auction.inj same⟩

theorem becomes_run [BlockState C] (lane : AuctionLane C T) (calls : List (Call C T)) :
    lane.Becomes (lane.run calls) := by
  induction calls generalizing lane with
  | nil => exact ⟨[], by simp, rfl⟩
  | cons call rest ih =>
    obtain ⟨first, passes, same⟩ := lane.becomes_perform call
    obtain ⟨second, passes', same'⟩ := ih (lane.perform call)
    refine ⟨first ++ second, ?_, ?_⟩
    · intro price sealedTx mem
      exact (List.mem_append.mp mem).elim (passes price sealedTx) (passes' price sealedTx)
    · rw [run, List.foldl_cons, ← run, same', same, Pool.run_append]

omit [Transaction T] in
theorem pool_of_create {settings : LaneSettings C T} {terms : Terms} {funds : Funds C}
    (created : create settings terms funds = .ok start) : start.pool = settings.emptyPool := by
  obtain ⟨_, -, made⟩ := bind_eq_ok_iff.mp created
  cases made
  rfl

theorem stocked_run [BlockState C] {settings : LaneSettings C T} {terms : Terms} {funds : Funds C}
    (created : create settings terms funds = .ok start) (calls : List (Call C T)) :
    (start.run calls).pool.Stocked fun price sealedTx => price = priority sealedTx.tx := by
  obtain ⟨operations, passes, same⟩ := start.becomes_run calls
  rw [same, pool_of_create created]
  exact Pool.stocked_run _ passes

/-! ## The highest bid -/

structure Contends (lane : AuctionLane C T) (exclude : Digest) (sealedTx : SealedTx T) (bid : Bid) :
    Prop where
  held : lane.pool.Holds sealedTx
  other : sealedTx.digest ≠ exclude
  made : Bid.ofTx? lane.settings.codec sealedTx.tx = .ok (some bid)

structure IsHighest (lane : AuctionLane C T) (exclude : Digest) (price : Coin) : Prop where
  offered : ∃ winner bid, lane.Contends exclude winner bid ∧ bid.price = price
  highest {rival : SealedTx T} {bid : Bid} (contends : lane.Contends exclude rival bid) :
    bid.price.amount ≤ price.amount

def InOrder (lane : AuctionLane C T) (exclude : Digest) : Prop :=
  ∀ rival bid, lane.Contends exclude rival bid → ∀ leader, lane.pool.Leads leader rival →
    bid.price.amount ≤ priority leader.tx

def rivalBid? (lane : AuctionLane C T) (exclude : Digest) (sealedTx : SealedTx T) : Option Bid :=
  if sealedTx.digest ≠ exclude then (Bid.ofTx? lane.settings.codec sealedTx.tx).toOption.join else none

theorem rivalBid?_eq_some_iff : lane.rivalBid? exclude sealedTx = some bid ↔
    sealedTx.digest ≠ exclude ∧ Bid.ofTx? lane.settings.codec sealedTx.tx = .ok (some bid) := by
  unfold rivalBid?
  rcases Bid.ofTx? lane.settings.codec sealedTx.tx with cause | _ | other <;> simp [Except.toOption]

theorem highestBid_fst (lane : AuctionLane C T) (exclude : Digest) :
    (lane.highestBid exclude).1 =
      (lane.pool.select.1.findSome? (lane.rivalBid? exclude)).map Bid.price := by
  change ((lane.pool.select.1.filter fun sealedTx => sealedTx.digest ≠ exclude).findSome? fun sealedTx =>
    (Bid.ofTx? lane.settings.codec sealedTx.tx).toOption.join.map Bid.price) = _
  rw [← List.head?_filterMap, List.filterMap_filter, List.head?_filterMap, List.map_findSome?]
  congr 1
  funext sealedTx
  by_cases other : sealedTx.digest = exclude <;> simp [rivalBid?, other]

theorem contends_iff (aligned : lane.pool.Aligned) : lane.Contends exclude sealedTx bid ↔
    sealedTx ∈ lane.pool.select.1 ∧ lane.rivalBid? exclude sealedTx = some bid := by
  rw [aligned.mem_select_iff, rivalBid?_eq_some_iff]
  exact ⟨fun ⟨held, other, made⟩ => ⟨held, other, made⟩, fun ⟨held, other, made⟩ => ⟨held, other, made⟩⟩

theorem highestBid_eq_none_iff (aligned : lane.pool.Aligned) :
    (lane.highestBid exclude).1 = none ↔ ∀ sealedTx bid, ¬lane.Contends exclude sealedTx bid := by
  rw [highestBid_fst, Option.map_eq_none_iff, List.findSome?_eq_none_iff]
  simp only [contends_iff aligned, Option.eq_none_iff_forall_ne_some, not_and]
  exact forall_congr' fun sealedTx => forall_comm

theorem exists_first_of_highestBid (aligned : lane.pool.Aligned) {price : Coin}
    (found : (lane.highestBid exclude).1 = some price) :
    ∃ before winner rest bid, lane.pool.select.1 = before ++ winner :: rest ∧
      lane.Contends exclude winner bid ∧ bid.price = price ∧
        ∀ rival other, lane.Contends exclude rival other → rival ∈ winner :: rest := by
  rw [highestBid_fst, Option.map_eq_some_iff] at found
  obtain ⟨bid, found, same⟩ := found
  obtain ⟨before, winner, rest, split, makes, nothing⟩ := List.findSome?_eq_some_iff.mp found
  have mem : winner ∈ lane.pool.select.1 := split ▸ List.mem_append_right before List.mem_cons_self
  refine ⟨before, winner, rest, bid, split, (contends_iff aligned).mpr ⟨mem, makes⟩, same, ?_⟩
  intro rival other contends
  obtain ⟨selected, makes'⟩ := (contends_iff aligned).mp contends
  rw [split, List.mem_append] at selected
  refine selected.resolve_left fun ahead => ?_
  rw [nothing rival ahead] at makes'
  cases makes'

theorem inOrder_of_nodup_senders (aligned : lane.pool.Aligned)
    (apart : (lane.pool.select.1.map fun sealedTx => Transaction.sender? sealedTx.tx).Nodup)
    (exclude : Digest) : lane.InOrder exclude := by
  intro rival bid contends leader leads
  have alone : leader = rival := List.inj_on_of_nodup_map apart (aligned.mem_select_iff.mpr leads.held)
    (aligned.mem_select_iff.mpr contends.held) leads.sender
  rw [alone, priority_of_made contends.made]
  exact UInt64.le_refl _

/-- No price is given exactly if the lane holds no bid apart from the excluded one. The price that is given
is that of such a bid, and no lower than the price of some transaction that leads any other; it is the
highest if none of them waits for less. -/
theorem highestBid_run [BlockState C] {settings : LaneSettings C T} {terms : Terms} {funds : Funds C}
    (created : create settings terms funds = .ok start) (calls : List (Call C T)) (exclude : Digest) :
    let lane := start.run calls
    ((lane.highestBid exclude).1 = none ↔ ∀ sealedTx bid, ¬lane.Contends exclude sealedTx bid) ∧
    ∀ price, (lane.highestBid exclude).1 = some price →
      (∃ winner bid, lane.Contends exclude winner bid ∧ bid.price = price) ∧
      (∀ rival bid, lane.Contends exclude rival bid →
        ∃ leader, lane.pool.Leads leader rival ∧ priority leader.tx ≤ price.amount) ∧
      (lane.InOrder exclude → lane.IsHighest exclude price) := by
  intro lane
  have stocked := stocked_run created calls
  refine ⟨highestBid_eq_none_iff stocked.aligned, fun price found => ?_⟩
  obtain ⟨before, winner, rest, bid, split, contends, same, behind⟩ :=
    exists_first_of_highestBid stocked.aligned found
  have worth : priority winner.tx = price.amount := by rw [priority_of_made contends.made, same]
  have led {rival : SealedTx T} {other : Bid} (contends : lane.Contends exclude rival other) :
      ∃ leader, lane.pool.Leads leader rival ∧ priority leader.tx ≤ price.amount :=
    worth ▸ stocked.exists_leads_of_prices (fun _ _ own => own) split (behind rival other contends)
  have offered : ∃ winner bid, lane.Contends exclude winner bid ∧ bid.price = price :=
    ⟨winner, bid, contends, same⟩
  refine ⟨offered, fun _ _ => led, fun ordered => ⟨offered, fun {rival other} contends => ?_⟩⟩
  obtain ⟨leader, leads, below⟩ := led contends
  exact UInt64.le_trans (ordered rival other contends leader leads) below

end AuctionLane

/-! ## A bid that is held up

One account bids 100 and then 2000, and another one 150: the 2000 wait for the 100. -/

namespace HeldUp

open Ledger

def bid (bidder sequence amount : UInt64) (entry : UInt8) : Tx :=
  { Tx.bid (.ofIndex bidder) sequence amount [[entry]] with timeout := 9 }

-- The first transfer with a fee can be paid for, the second cannot, and so a bundle with it fails halfway.
def txs : List Tx :=
  [.transfer (.ofIndex 1) 5 0, .transfer (.ofIndex 1) 6 0, .transfer (.ofIndex 2) 5 0,
    bid 1 0 100 0, bid 1 1 2000 1, bid 2 0 150 2, .transfer (.ofIndex 2) 6 3, .transfer (.ofIndex 2) 7 9000,
    { Tx.bid (.ofIndex 2) 0 300 [[1], [7]] with timeout := 9 }]

def state (phase : Phase) : State :=
  ((State.empty 1 phase 1000).setBalance (.ofIndex 1) ⟨denom, 5000⟩).setBalance (.ofIndex 2) ⟨denom, 5000⟩

def codec : Codec Tx where
  encode tx :=
    match txs.idxOf? tx with
    | some place => .ok [UInt8.ofNat place]
    | none => .error (.unwritable "not listed")
  decode bytes :=
    match bytes.map (fun place => txs[place.toNat]?) with
    | [some tx] => .ok tx
    | _ => .error (.unreadable "not listed")

def low : SealedTx Tx := .ofParts (bid 1 0 100 0) [3]

def high : SealedTx Tx := .ofParts (bid 1 1 2000 1) [4]

def rival : SealedTx Tx := .ofParts (bid 2 0 150 2) [5]

def paid : SealedTx Tx := .ofParts (.transfer (.ofIndex 2) 6 3) [6]

def halfway : SealedTx Tx := .ofParts { Tx.bid (.ofIndex 2) 0 300 [[1], [7]] with timeout := 9 } [8]

def bundled : SealedTx Tx := .ofParts (.transfer (.ofIndex 1) 5 0) [0]

theorem distinct_digests (places : List Nat) (distinct : places.Nodup) (listed : ∀ place ∈ places, place < 7) :
    (places.map fun place => sha256 [UInt8.ofNat place]).Nodup := by
  have all : ((List.range 7).map fun place => sha256 [UInt8.ofNat place]).Nodup := by
    decide +kernel
  refine List.Nodup.map_on (fun place mem other mem' same => ?_) distinct
  exact List.inj_on_of_nodup_map all (List.mem_range.mpr (listed place mem))
    (List.mem_range.mpr (listed other mem')) same

def laneSettings : LaneSettings State Tx where
  codec := codec
  verifier := none
  limits := {}

def blank : AuctionLane State Tx := ⟨laneSettings, {}, State.funds, laneSettings.emptyPool⟩

def calls : List (AuctionLane.Call State Tx) := [.insert low, .insert high, .insert rival]

def callsInOrder : List (AuctionLane.Call State Tx) := [.insert low, .insert rival]

theorem create_eq_blank : AuctionLane.create laneSettings {} State.funds = .ok blank := rfl

theorem highestBid_eq_rival : ((blank.run calls).highestBid low.digest).1 = some ⟨denom, 150⟩ := by
  decide +kernel

theorem highestBid_inOrder :
    ((blank.run callsInOrder).highestBid high.digest).1 = some ⟨denom, 150⟩ := by
  decide +kernel

theorem senders_nodup_inOrder : ((blank.run callsInOrder).pool.select.1.map fun sealedTx =>
    Transaction.sender? sealedTx.tx).Nodup := by
  decide

theorem high_held : (blank.run calls).pool.Holds high := by
  have there : ((blank.run calls).pool.entry? (.ofIndex 1) 1).map (fun entry =>
      (entry.sealedTx.tx, entry.sealedTx.bytes)) = some (high.tx, high.bytes) := by
    decide
  obtain ⟨entry, found, same⟩ := Option.map_eq_some_iff.mp there
  obtain ⟨tx, bytes⟩ := Prod.mk.inj same
  exact ⟨_, _, entry, found, (SealedTx.ofParts_eq_iff.mpr ⟨tx, bytes⟩).symm⟩

theorem high_contends : ∃ bid, (blank.run calls).Contends low.digest high bid ∧
    bid.price = ⟨denom, 2000⟩ :=
  ⟨_, ⟨high_held, by decide +kernel, rfl⟩, rfl⟩

end HeldUp

namespace AuctionLane

open Ledger HeldUp in
theorem highestBid_run_of_held_up :
    let lane := blank.run calls
    let ordered := blank.run callsInOrder
    create laneSettings {} State.funds = .ok blank ∧ (lane.highestBid low.digest).1 = some ⟨denom, 150⟩ ∧
      (∃ winner bid, lane.Contends low.digest winner bid ∧ bid.price = ⟨denom, 150⟩) ∧
      (∃ bid, lane.Contends low.digest high bid) ∧
      (∃ leader, lane.pool.Leads leader high ∧ priority leader.tx ≤ 150) ∧
      ordered.InOrder high.digest ∧ ordered.IsHighest high.digest ⟨denom, 150⟩ := by
  intro lane ordered
  obtain ⟨bid, contends, -⟩ := high_contends
  obtain ⟨offered, led, -⟩ := (highestBid_run create_eq_blank calls low.digest).2 _ highestBid_eq_rival
  have inOrder : ordered.InOrder high.digest :=
    inOrder_of_nodup_senders (stocked_run create_eq_blank callsInOrder).aligned senders_nodup_inOrder _
  obtain ⟨-, -, highest⟩ :=
    (highestBid_run create_eq_blank callsInOrder high.digest).2 _ highestBid_inOrder
  exact ⟨create_eq_blank, highestBid_eq_rival, offered, ⟨bid, contends⟩, led high bid contends, inOrder,
    highest inOrder⟩

open Ledger HeldUp in
/-- So the price that is given need not be the highest. -/
theorem exists_highestBid_below_maximum :
    let lane := blank.run calls
    create laneSettings {} State.funds = .ok blank ∧ ∃ price bid,
      (lane.highestBid low.digest).1 = some price ∧ lane.Contends low.digest high bid ∧
        price.amount < bid.price.amount ∧ ¬lane.IsHighest low.digest price := by
  intro lane
  obtain ⟨bid, contends, offers⟩ := high_contends
  have more : (150 : UInt64) < bid.price.amount := by
    rw [offers]
    decide
  refine ⟨create_eq_blank, _, bid, highestBid_eq_rival, contends, more, fun highest => ?_⟩
  exact UInt64.not_le.mpr more (highest.highest contends)

end AuctionLane

end BlockBuilder
