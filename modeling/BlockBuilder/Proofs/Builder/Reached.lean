import BlockBuilder.Proofs.Builder.Lanes
import BlockBuilder.Proofs.Registry.Evolution

namespace BlockBuilder

variable {C T : Type}

def Codec.Reads (codec : Codec T) (sealedTx : SealedTx T) : Prop :=
  codec.decode sealedTx.bytes = .ok sealedTx.tx

theorem Codec.Reads.eq_of_bytes_eq {codec : Codec T} {first second : SealedTx T}
    (reads : codec.Reads first) (reads' : codec.Reads second) (same : first.bytes = second.bytes) :
    first = second := by
  obtain ⟨tx, bytes, digest, rfl⟩ := first
  obtain ⟨tx', bytes', digest', rfl⟩ := second
  cases same
  cases Except.ok.inj (Eq.trans (Eq.symm reads) reads')
  rfl

variable [Transaction T] [BlockState C]

namespace Builder

variable {config : Config} {codec : Codec T} {verifier : Verifier C T} {funds : Funds C}
  {builder : Builder C T}

inductive Reached (config : Config) (codec : Codec T) (verifier : Verifier C T) (funds : Funds C) :
    Builder C T → Prop
  | start {builder : Builder C T} (made : ofConfig config codec verifier funds = .ok builder) :
      Reached config codec verifier funds builder
  | submit {builder : Builder C T} (reached : Reached config codec verifier funds builder) (state : C)
      (bytes : Bytes) :
      Reached config codec verifier funds
        { builder with registry := (builder.rules.submit builder.registry state bytes).2 }
  | remove {builder : Builder C T} (reached : Reached config codec verifier funds builder)
      {digest : Digest} {registry : Registry (StandardLane C T)}
      (removed : builder.registry.remove digest = .ok registry) :
      Reached config codec verifier funds { builder with registry }
  | removeCommitted {builder : Builder C T} (reached : Reached config codec verifier funds builder)
      (txs : List (SealedTx T)) :
      Reached config codec verifier funds
        { builder with registry := (builder.registry.removeCommitted txs).2 }
  | select {builder : Builder C T} (reached : Reached config codec verifier funds builder) :
      Reached config codec verifier funds { builder with registry := builder.registry.select.2 }
  | propose {builder : Builder C T} (reached : Reached config codec verifier funds builder) (state : C)
      (limit : Nat) :
      Reached config codec verifier funds
        { builder with registry := (builder.registry.propose state limit).2.1 }

theorem Reached.settled (reached : Reached config codec verifier funds builder) :
    config.check = .ok () ∧ builder.rules = ⟨codec, verifier, config.terms, funds⟩ := by
  induction reached with
  | start made =>
    obtain ⟨checked, rfl⟩ := ofConfig_eq_ok_iff.mp made
    exact ⟨checked, rfl⟩
  | submit _ _ _ ih => exact ih
  | remove _ _ ih => exact ih
  | removeCommitted _ _ ih => exact ih
  | select _ ih => exact ih
  | propose _ _ _ ih => exact ih

theorem Reached.submitAll (reached : Reached config codec verifier funds builder) (state : C)
    (submissions : List Bytes) :
    Reached config codec verifier funds (submissions.foldl (fun builder bytes =>
      { builder with registry := (builder.rules.submit builder.registry state bytes).2 }) builder) := by
  induction submissions generalizing builder with
  | nil => exact reached
  | cons bytes rest ih => exact ih (.submit reached state bytes)

def Screened (builder : Builder C T) (position : Nat) (priority : UInt64) (sealedTx : SealedTx T) :
    Prop :=
  ∃ bytes state next, SealedTx.decode builder.rules.codec bytes = .ok sealedTx ∧
    (builder.rules.screen builder.registry state sealedTx).1 = .ok next ∧
    Routed builder.registry.lanes next sealedTx position priority

section Taken

variable {allowed : Nat → UInt64 → SealedTx T → Prop}

theorem Reached.evolves_of
    (passes : ∀ builder : Builder C T, Reached config codec verifier funds builder →
      ∀ position priority sealedTx, builder.Screened position priority sealedTx →
        allowed position priority sealedTx)
    (reached : Reached config codec verifier funds builder) :
    Evolves allowed (fresh config codec verifier funds).registry.lanes builder.registry.lanes := by
  induction reached with
  | start made =>
    obtain ⟨-, rfl⟩ := ofConfig_eq_ok_iff.mp made
    exact .refl
  | @submit builder reached state bytes ih =>
    refine ih.trans ((Admission.evolves_submit ..).mono ?_)
    rintro position priority sealedTx ⟨read, next, valid, routed⟩
    exact passes builder reached _ _ _ ⟨bytes, state, next, read, valid, routed⟩
  | remove _ removed ih => exact ih.trans (Registry.evolves_remove removed)
  | removeCommitted _ txs ih => exact ih.trans (Registry.evolves_removeCommitted _ txs)
  | select _ ih => exact ih.trans (Registry.evolves_select _)
  | propose _ state limit ih => exact ih.trans (Registry.evolves_propose _ state limit)

theorem Reached.madeFrom (reached : Reached config codec verifier funds builder) :
    builder.MadeFrom config codec verifier funds := by
  have evolves : Evolves (fun _ _ _ => True) (fresh config codec verifier funds).registry.lanes
      builder.registry.lanes := reached.evolves_of fun _ _ _ _ _ _ => trivial
  exact .of_bare reached.settled.1 reached.settled.2 evolves.map_bare

omit [BlockState C] in
theorem blank_fresh (lane : StandardLane C T)
    (mem : lane ∈ (fresh config codec verifier funds).registry.lanes) :
    ∃ policy, lane.pool = .empty policy := by
  rcases List.mem_pair.mp mem with rfl | rfl <;> exact ⟨_, rfl⟩

theorem exists_lanes_of_evolves (checked : config.check = .ok ()) {lanes : List (StandardLane C T)}
    (evolves : Evolves allowed (fresh config codec verifier funds).registry.lanes lanes) :
    ∃ bids others, lanes =
        [.auction { auctionLane config codec verifier funds with pool := bids },
          .general { generalLane config codec verifier with pool := others }] ∧
      bids.Stocked (allowed 0) ∧ others.Stocked (allowed 1) := by
  have made : (Builder.mk ⟨lanes⟩ ⟨codec, verifier, config.terms, funds⟩).MadeFrom config codec verifier
      funds := .of_bare checked rfl evolves.map_bare
  obtain ⟨bids, others, same⟩ := made.lanes
  obtain rfl : lanes = _ := same
  exact ⟨bids, others, rfl, evolves.stocked blank_fresh 0 rfl, evolves.stocked blank_fresh 1 rfl⟩

theorem Reached.lanes_of
    (passes : ∀ builder : Builder C T, Reached config codec verifier funds builder →
      ∀ position priority sealedTx, builder.Screened position priority sealedTx →
        allowed position priority sealedTx)
    (reached : Reached config codec verifier funds builder) :
    ∃ bids others, builder.registry.lanes =
        [.auction { auctionLane config codec verifier funds with pool := bids },
          .general { generalLane config codec verifier with pool := others }] ∧
      bids.Stocked (allowed 0) ∧ others.Stocked (allowed 1) :=
  exists_lanes_of_evolves reached.settled.1 (reached.evolves_of passes)

end Taken

def Admitted (codec : Codec T) (position : Nat) (priority : UInt64) (sealedTx : SealedTx T) : Prop :=
  codec.Reads sealedTx ∧
    if position = 0 then ∃ bid, Bid.ofTx? codec sealedTx.tx = .ok (some bid) ∧ priority = bid.price.amount
    else Transaction.isBid sealedTx.tx = false

omit [BlockState C] in
theorem reads_of_holds {position : Nat} {pool : Pool T UInt64} {sealedTx : SealedTx T}
    (stocked : pool.Stocked (Admitted codec position)) (holds : pool.Holds sealedTx) :
    codec.Reads sealedTx := by
  obtain ⟨-, reads, -⟩ := stocked.of_holds holds
  exact reads

theorem Reached.admitted_of_screened (reached : Reached config codec verifier funds builder)
    {position : Nat} {priority : UInt64} {sealedTx : SealedTx T}
    (screened : builder.Screened position priority sealedTx) :
    Admitted codec position priority sealedTx := by
  obtain ⟨bytes, state, next, read, valid, routed⟩ := screened
  rw [reached.settled.2] at read valid
  obtain ⟨same, decoded⟩ := SealedTx.decode_eq_ok_iff.mp read
  have reads : codec.Reads sealedTx := by rwa [Codec.Reads, same]
  rw [← routed_map_bare_iff, reached.madeFrom.bare] at routed
  obtain ⟨first, under⟩ := routed
  cases made : Bid.ofTx? codec sealedTx.tx with
  | error cause => simp [Admission.screen, made] at valid
  | ok offered =>
    cases offered with
    | none =>
      have noBid := ofTx?_eq_none_iff.mp made
      have second : position = 1 := by
        simpa [bareLanes, List.findIdx?_cons, StandardLane.accepts, generalLane_accepts_eq, noBid,
          eq_comm] using first
      exact ⟨reads, by rwa [second, if_neg Nat.one_ne_zero]⟩
    | some bid =>
      have top : position = 0 := by
        simpa [bareLanes, List.findIdx?_cons, StandardLane.accepts, isBid_of_made made, eq_comm]
          using first
      subst top
      have price : AuctionLane.priority sealedTx.tx = priority := by
        simpa [bareLanes, StandardLane.priorityOf] using under
      exact ⟨reads, by rw [if_pos rfl]; exact ⟨bid, made, by rw [← price, priority_of_made made]⟩⟩

theorem Reached.evolves (reached : Reached config codec verifier funds builder) :
    Evolves (Admitted codec) (fresh config codec verifier funds).registry.lanes
      builder.registry.lanes :=
  reached.evolves_of fun _ reached _ _ _ => reached.admitted_of_screened

theorem Reached.lanes (reached : Reached config codec verifier funds builder) :
    ∃ bids others, builder.registry.lanes =
        [.auction { auctionLane config codec verifier funds with pool := bids },
          .general { generalLane config codec verifier with pool := others }] ∧
      bids.Stocked (Admitted codec 0) ∧ others.Stocked (Admitted codec 1) :=
  reached.lanes_of fun _ reached _ _ _ => reached.admitted_of_screened

theorem Reached.auction (reached : Reached config codec verifier funds builder)
    {lane : AuctionLane C T} (mem : .auction lane ∈ builder.registry.lanes) :
    (∃ others, builder.registry.lanes = .auction lane :: others) ∧
      lane = { auctionLane config codec verifier funds with pool := lane.pool } ∧
      lane.pool.Stocked (Admitted codec 0) := by
  obtain ⟨bids, others, lanes, stocked, -⟩ := reached.lanes
  obtain rfl : lane = { auctionLane config codec verifier funds with pool := bids } := by
    simpa [lanes] using mem
  exact ⟨⟨_, lanes⟩, rfl, stocked⟩

theorem Reached.filled (reached : Reached config codec verifier funds builder) :
    builder.registry.FilledWith codec.Reads (bareLanes config codec verifier funds) := by
  obtain ⟨bids, others, lanes, auction, general⟩ := reached.lanes
  rw [Registry.FilledWith, lanes]
  exact .cons ⟨rfl, fun sealedTx holds => reads_of_holds auction holds⟩
    (.cons ⟨rfl, fun sealedTx holds => reads_of_holds general holds⟩ .nil)

end Builder

end BlockBuilder
