import BlockBuilder.Proofs.Builder.Calls
import BlockBuilder.Proofs.Builder.HighestBid
import BlockBuilder.Proofs.Registry.Housing

/-!
# Submissions are atomic

A submission is refused with everything as it was, or it is admitted and then does exactly what it
is for (`submit_atomic`). Before it is refused it may have brought weights up to date while looking
for the highest bid; what it leaves is then another registry, but an alike one, and no sequence of
calls shows a difference (`Reached.alike_of_refused`).
-/
namespace BlockBuilder

variable {C T : Type} [Transaction T] [BlockState C]

namespace Builder

variable {builder after : Builder C T} {state next : C} {bytes : Bytes} {digest : Digest}

/-! ## What is pending -/

def held (builder : Builder C T) (lane : String) (slot : Slot) : Option (UInt64 × SealedTx T) :=
  (builder.registry.lane? lane).toOption.bind fun lane => lane.pool.holding[slot]?

def home (tx : T) : String :=
  if Transaction.isBid tx then AuctionLane.name else GeneralLane.defaultName

def priorityIn (next : C) (tx : T) : UInt64 :=
  if Transaction.isBid tx then AuctionLane.priority tx else BlockState.priority next

/-- The lanes are the same and hold the same, and after any calls they select the same. -/
structure Unchanged (builder after : Builder C T) : Prop where
  rules : after.rules = builder.rules
  lanes : after.registry.lanes.map StandardLane.bare = builder.registry.lanes.map StandardLane.bare
  held (lane : String) (slot : Slot) : after.held lane slot = builder.held lane slot
  selections (calls : List (Call C T)) : (after.run calls).selections = (builder.run calls).selections

/-- The lanes are the same and hold the same, but for the transaction in its own slot, and what it
takes the place of is not pending any more. -/
structure Takes (builder : Builder C T) (sealedTx : SealedTx T) (priority : UInt64)
    (after : Builder C T) : Prop where
  rules : after.rules = builder.rules
  lanes : after.registry.lanes.map StandardLane.bare = builder.registry.lanes.map StandardLane.bare
  known : after.registry.contains sealedTx.digest = true
  held : ∃ own, sealedTx.slot? = some own ∧
    (∀ lane slot, after.held lane slot =
      if lane = home sealedTx.tx ∧ slot = own then some (priority, sealedTx)
      else builder.held lane slot) ∧
    ∀ before previous, builder.held (home sealedTx.tx) own = some (before, previous) →
      previous ≠ sealedTx → ¬after.registry.Holds previous

variable {config : Config} {codec : Codec T} {verifier : Verifier C T} {funds : Funds C}
  {bids others : Pool T UInt64} {lane : String} {slot : Slot} {priority : UInt64}
  {sealedTx : SealedTx T}

def filledLanes (config : Config) (codec : Codec T) (verifier : Verifier C T) (funds : Funds C)
    (bids others : Pool T UInt64) : List (StandardLane C T) :=
  [.auction { auctionLane config codec verifier funds with pool := bids },
    .general { generalLane config codec verifier with pool := others }]

theorem held_eq (builder : Builder C T)
    (lanes : builder.registry.lanes = filledLanes config codec verifier funds bids others)
    (lane : String) (slot : Slot) :
    builder.held lane slot =
      if lane = AuctionLane.name then bids.holding[slot]?
      else if lane = GeneralLane.defaultName then others.holding[slot]? else none := by
  have top : BlockLane.name (StandardLane.auction { auctionLane config codec verifier funds with
    pool := bids }) = AuctionLane.name := rfl
  have bottom : BlockLane.name (StandardLane.general { generalLane config codec verifier with
    pool := others }) = GeneralLane.defaultName := rfl
  simp only [held, Registry.lane?, lanes, filledLanes, List.find?_cons, List.find?_nil, top, bottom]
  by_cases auction : lane = AuctionLane.name
  · simp [auction, StandardLane.pool, Except.toOption]
  · have other : (AuctionLane.name == lane) = false := beq_false_of_ne (Ne.symm auction)
    by_cases general : lane = GeneralLane.defaultName
    · subst general
      simp [auction, other, StandardLane.pool, Except.toOption]
    · have neither : (GeneralLane.defaultName == lane) = false := beq_false_of_ne (Ne.symm general)
      simp [auction, general, other, neither, Except.toOption]

theorem held_auction {builder : Builder C T} {auction : AuctionLane C T}
    {others : List (StandardLane C T)} (lanes : builder.registry.lanes = .auction auction :: others)
    (slot : Slot) : builder.held AuctionLane.name slot = auction.pool.holding[slot]? := by
  have named : BlockLane.name (StandardLane.auction auction) = AuctionLane.name := rfl
  simp [held, Registry.lane?, lanes, named, StandardLane.pool, Except.toOption]

theorem Reached.home_of_held (reached : Reached config codec verifier funds builder)
    (held : builder.held lane slot = some (priority, sealedTx)) :
    lane = home sealedTx.tx ∧ sealedTx.slot? = some slot ∧ codec.Reads sealedTx := by
  obtain ⟨bids, others, lanes, auction, general⟩ := reached.lanes
  rw [held_eq builder lanes] at held
  split at held
  · rename_i top
    obtain ⟨reads, bid, made, -⟩ := auction.held held
    obtain ⟨entry, found, rfl, rfl⟩ := Pool.holding_eq_some_iff.mp held
    exact ⟨by rw [home, isBid_of_made made]; exact top, auction.aligned.seated found, reads⟩
  · split at held
    · rename_i bottom
      obtain ⟨reads, noBid⟩ := general.held held
      obtain ⟨entry, found, rfl, rfl⟩ := Pool.holding_eq_some_iff.mp held
      rw [if_neg Nat.one_ne_zero] at noBid
      exact ⟨by rw [home, noBid]; exact bottom, general.aligned.seated found, reads⟩
    · cases held

theorem Reached.holds_iff (reached : Reached config codec verifier funds builder) :
    builder.registry.Holds sealedTx ↔
      ∃ lane slot priority, builder.held lane slot = some (priority, sealedTx) := by
  obtain ⟨bids, others, lanes, auction, general⟩ := reached.lanes
  constructor
  · rintro ⟨lane, mem, holds⟩
    obtain ⟨slot, priority, held⟩ := Pool.Holds.exists_held holds
    rw [lanes] at mem
    rcases List.mem_pair.mp mem with rfl | rfl
    · exact ⟨AuctionLane.name, slot, priority, by rw [held_eq builder lanes, if_pos rfl]; exact held⟩
    · refine ⟨GeneralLane.defaultName, slot, priority, ?_⟩
      rw [held_eq builder lanes, if_neg (by decide), if_pos rfl]
      exact held
  · rintro ⟨lane, slot, priority, held⟩
    rw [held_eq builder lanes] at held
    rw [Registry.Holds, lanes]
    split at held
    · obtain ⟨entry, found, rfl, rfl⟩ := Pool.holding_eq_some_iff.mp held
      exact ⟨_, List.mem_cons_self, Pool.holds_of_entryAt found⟩
    · split at held
      · obtain ⟨entry, found, rfl, rfl⟩ := Pool.holding_eq_some_iff.mp held
        exact ⟨_, List.mem_cons_of_mem _ List.mem_cons_self, Pool.holds_of_entryAt found⟩
      · cases held

theorem Reached.exists_held_of_contains (reached : Reached config codec verifier funds builder)
    (known : builder.registry.contains digest = true) :
    ∃ lane slot priority sealedTx, builder.held lane slot = some (priority, sealedTx) ∧
      sealedTx.digest = digest := by
  obtain ⟨bids, others, lanes, auction, general⟩ := reached.lanes
  have located {pool : Pool T UInt64} (located : pool.Located pool.entryAt)
      (known : pool.contains digest = true) :
      ∃ sealedTx, pool.Holds sealedTx ∧ sealedTx.digest = digest := by
    obtain ⟨slot, found⟩ := Pool.exists_slot_of_contains known
    obtain ⟨entry, there, same⟩ := located digest slot found
    exact ⟨entry.sealedTx, Pool.holds_of_entryAt there, same⟩
  have pending : ∃ sealedTx, builder.registry.Holds sealedTx ∧ sealedTx.digest = digest := by
    obtain ⟨lane, mem, known⟩ := List.any_eq_true.mp known
    have members := mem
    rw [lanes] at mem
    rcases List.mem_pair.mp mem with rfl | rfl
    · obtain ⟨sealedTx, holds, same⟩ := located auction.located known
      exact ⟨sealedTx, ⟨_, members, holds⟩, same⟩
    · obtain ⟨sealedTx, holds, same⟩ := located general.located known
      exact ⟨sealedTx, ⟨_, members, holds⟩, same⟩
  obtain ⟨sealedTx, pending, same⟩ := pending
  obtain ⟨lane, slot, priority, held⟩ := reached.holds_iff.mp pending
  exact ⟨lane, slot, priority, sealedTx, held, same⟩

/-! ## Refusals -/

theorem Reached.alike_registry (reached : Reached config codec verifier funds builder) :
    builder.registry.Alike builder.registry := by
  obtain ⟨bids, others, lanes, auction, general⟩ := reached.lanes
  rw [Registry.Alike, lanes]
  exact .cons ⟨bids, auction.aligned.alike, rfl⟩ (.cons ⟨others, general.aligned.alike, rfl⟩ .nil)

theorem Reached.alike_screen (reached : Reached config codec verifier funds builder)
    (state : C) (sealedTx : SealedTx T) :
    builder.registry.Alike (builder.rules.screen builder.registry state sealedTx).2 := by
  have same := reached.alike_registry
  have looked : builder.registry.Alike
      (builder.rules.topPrice builder.registry state sealedTx.digest).2 := by
    cases submission : (BlockState.phase state).isSubmission with
    | false => simpa [Admission.topPrice, submission] using same
    | true =>
      obtain ⟨bids, others, lanes, auction, general⟩ := reached.lanes
      rw [Admission.topPrice_of_auction lanes submission, Registry.Alike, lanes]
      exact .cons ⟨bids.settle, auction.aligned.alike_settle, rfl⟩
        (.cons ⟨others, general.aligned.alike, rfl⟩ .nil)
  unfold Admission.screen
  split
  · exact same
  · exact same
  · exact looked

theorem Reached.alike_of_refused (reached : Reached config codec verifier funds builder)
    {cause : AdmissionError}
    (refused : (builder.rules.submit builder.registry state bytes).1 = .error cause) :
    builder.registry.Alike (builder.rules.submit builder.registry state bytes).2 := by
  have same := reached.alike_registry
  unfold Admission.submit at refused ⊢
  split
  · exact same
  · rename_i sealedTx read
    have looked := reached.alike_screen state sealedTx
    rw [read] at refused
    dsimp only at refused
    split
    · exact same
    · rename_i known
      rw [if_neg known] at refused
      revert refused looked
      rcases builder.rules.screen builder.registry state sealedTx with ⟨cause | next, middle⟩
      · exact fun _ looked => looked
      · intro refused looked
        dsimp only at refused looked ⊢
        unfold Admission.enter at refused ⊢
        split
        · exact looked
        · rename_i done
          rw [done] at refused
          cases refused

/-! ## Admissions -/

theorem contains_of_insertFirst {lanes filled : List (StandardLane C T)}
    (done : Registry.insertFirst next sealedTx lanes = .ok filled) :
    filled.any (fun lane => BlockLane.contains lane sealedTx.digest) = true := by
  induction lanes generalizing filled with
  | nil => cases done
  | cons lane rest ih =>
    rw [Registry.insertFirst] at done
    split at done
    · obtain ⟨fuller, into, rfl⟩ := map_eq_ok_iff.mp done
      obtain ⟨pool, inserted, rfl⟩ :=
        pool_result_eq_ok_iff.mp ((StandardLane.insert_eq ..).symm.trans into)
      obtain ⟨own, -, slots⟩ := Pool.Alike.slots_of_insert inserted
      have known : pool.contains sealedTx.digest = true := by
        rw [Pool.contains, slots, Std.HashMap.contains_insert_self]
      have same : BlockLane.contains (lane.withPool pool) sealedTx.digest =
          pool.contains sealedTx.digest :=
        congrArg (Pool.contains · sealedTx.digest) (StandardLane.pool_withPool pool)
      rw [List.any_cons, same, known, Bool.true_or]
    · obtain ⟨later, inserted, rfl⟩ := map_eq_ok_iff.mp done
      rw [List.any_cons, ih inserted, Bool.or_true]

theorem exists_filledLanes_of_insert {registry changed : Registry (StandardLane C T)}
    (lanes : registry.lanes = filledLanes config codec verifier funds bids others)
    (done : registry.insert next sealedTx = .ok changed) :
    ∃ own bids' others', sealedTx.slot? = some own ∧
      changed.lanes = filledLanes config codec verifier funds bids' others' ∧
      bids'.holding = (if Transaction.isBid sealedTx.tx
        then bids.holding.insert own (priorityIn next sealedTx.tx, sealedTx) else bids.holding) ∧
      others'.holding = (if Transaction.isBid sealedTx.tx then others.holding
        else others.holding.insert own (priorityIn next sealedTx.tx, sealedTx)) := by
  obtain ⟨filled, routing, rfl⟩ := map_eq_ok_iff.mp done
  rw [lanes, filledLanes, Registry.insertFirst] at routing
  have routed : BlockLane.accepts (StandardLane.auction { auctionLane config codec verifier funds with
    pool := bids }) next sealedTx.tx = Transaction.isBid sealedTx.tx := rfl
  rw [routed] at routing
  cases isBid : Transaction.isBid sealedTx.tx with
  | true =>
    rw [if_pos isBid] at routing
    obtain ⟨lane, into, rfl⟩ := map_eq_ok_iff.mp routing
    obtain ⟨pool, inserted, rfl⟩ :=
      pool_result_eq_ok_iff.mp ((StandardLane.insert_eq ..).symm.trans into)
    obtain ⟨own, meant, holding⟩ := Pool.holding_insert inserted
    refine ⟨own, pool, others, meant, rfl, ?_, rfl⟩
    rw [holding, if_pos rfl, priorityIn, if_pos isBid]
    rfl
  | false =>
    rw [if_neg (by simp [isBid])] at routing
    obtain ⟨rest, later, rfl⟩ := map_eq_ok_iff.mp routing
    have accepts : (generalLane config codec verifier).accepts next sealedTx.tx = true := by
      rw [generalLane_accepts_eq, isBid]
      rfl
    have accepted : BlockLane.accepts (StandardLane.general { generalLane config codec verifier with
      pool := others }) next sealedTx.tx = true := accepts
    rw [Registry.insertFirst, if_pos accepted] at later
    obtain ⟨lane, into, rfl⟩ := map_eq_ok_iff.mp later
    obtain ⟨pool, inserted, rfl⟩ :=
      pool_result_eq_ok_iff.mp ((StandardLane.insert_eq ..).symm.trans into)
    obtain ⟨own, meant, holding⟩ := Pool.holding_insert inserted
    refine ⟨own, bids, pool, meant, rfl, rfl, ?_⟩
    rw [holding, if_neg Bool.false_ne_true, priorityIn, if_neg (by simp [isBid])]
    rfl

omit [BlockState C] in
theorem exists_filledLanes_of_alike {registry changed : Registry (StandardLane C T)}
    (lanes : registry.lanes = filledLanes config codec verifier funds bids others)
    (alike : registry.Alike changed) :
    ∃ bids' others', changed.lanes = filledLanes config codec verifier funds bids' others' ∧
      bids'.holding = bids.holding ∧ others'.holding = others.holding := by
  rw [Registry.Alike, lanes, filledLanes] at alike
  obtain ⟨first, rest, ⟨bids', auction, rfl⟩, later, same⟩ := List.forall₂_cons_left_iff.mp alike
  obtain ⟨second, none, ⟨others', general, rfl⟩, last, rfl⟩ := List.forall₂_cons_left_iff.mp later
  cases List.forall₂_nil_left_iff.mp last
  exact ⟨bids', others', same, auction.holding.symm, general.holding.symm⟩

theorem held_of_insert {registry changed : Registry (StandardLane C T)}
    (lanes : builder.registry.lanes = filledLanes config codec verifier funds bids others)
    (alike : builder.registry.Alike registry) (done : registry.insert next sealedTx = .ok changed) :
    ∃ own, sealedTx.slot? = some own ∧ ∀ lane slot,
      ({ builder with registry := changed } : Builder C T).held lane slot =
        if lane = home sealedTx.tx ∧ slot = own then some (priorityIn next sealedTx.tx, sealedTx)
        else builder.held lane slot := by
  obtain ⟨bids', others', between, sameBids, sameOthers⟩ := exists_filledLanes_of_alike lanes alike
  obtain ⟨own, bids'', others'', meant, after, inBids, inOthers⟩ :=
    exists_filledLanes_of_insert between done
  refine ⟨own, meant, fun lane slot => ?_⟩
  have distinct : GeneralLane.defaultName ≠ AuctionLane.name := by decide
  rw [held_eq { builder with registry := changed } after, held_eq builder lanes, inBids, inOthers,
    sameBids, sameOthers, home]
  cases isBid : Transaction.isBid sealedTx.tx with
  | true =>
    by_cases top : lane = AuctionLane.name
    · rcases eq_or_ne slot own with rfl | other
      · simp [top]
      · simp [top, other, other.symm, Std.ExtHashMap.getElem?_insert]
    · simp [top]
  | false =>
    by_cases bottom : lane = GeneralLane.defaultName
    · rcases eq_or_ne slot own with rfl | other
      · simp [bottom, distinct]
      · simp [bottom, distinct, other, other.symm, Std.ExtHashMap.getElem?_insert]
    · simp [bottom]

theorem Reached.unchanged_of_refused (reached : Reached config codec verifier funds builder)
    {cause : AdmissionError}
    (refused : (builder.rules.submit builder.registry state bytes).1 = .error cause) :
    builder.Unchanged
      { builder with registry := (builder.rules.submit builder.registry state bytes).2 } := by
  have registry := reached.alike_of_refused refused
  have alike : builder.Alike
      { builder with registry := (builder.rules.submit builder.registry state bytes).2 } :=
    ⟨rfl, registry⟩
  obtain ⟨bids, others, lanes, -⟩ := reached.lanes
  obtain ⟨bids', others', after, sameBids, sameOthers⟩ := exists_filledLanes_of_alike lanes registry
  refine ⟨rfl, ?_, fun lane slot => ?_, fun calls => (alike.run calls).selections.symm⟩
  · exact (Admission.evolves_submit builder.rules builder.registry state bytes).map_bare
  · rw [held_eq { builder with registry := _ } after, held_eq builder lanes, sameBids, sameOthers]

theorem Reached.takes_of_admitted (reached : Reached config codec verifier funds builder)
    {registry changed : Registry (StandardLane C T)} (alike : builder.registry.Alike registry)
    (done : registry.insert next sealedTx = .ok changed)
    (reached' : Reached config codec verifier funds { builder with registry := changed }) :
    builder.Takes sealedTx (priorityIn next sealedTx.tx) { builder with registry := changed } := by
  obtain ⟨bids, others, lanes, -⟩ := reached.lanes
  obtain ⟨own, meant, held⟩ := held_of_insert lanes alike done
  have known : changed.contains sealedTx.digest = true := by
    obtain ⟨filled, inserted, rfl⟩ := map_eq_ok_iff.mp done
    exact contains_of_insertFirst inserted
  refine ⟨rfl, reached'.evolves.map_bare.trans reached.evolves.map_bare.symm, known, own, meant, held, ?_⟩
  intro before previous there other pending
  -- what was in the slot would still be in it
  obtain ⟨home, seat, -⟩ := reached.home_of_held there
  obtain ⟨lane, slot, priority, still⟩ := reached'.holds_iff.mp pending
  obtain ⟨home', seat', -⟩ := reached'.home_of_held still
  cases seat.symm.trans seat'
  rw [held, if_pos ⟨home'.trans home.symm, rfl⟩] at still
  cases still
  exact other rfl

theorem Reached.takes_of_submit (reached : Reached config codec verifier funds builder)
    {changed : Registry (StandardLane C T)}
    (answered : builder.rules.submit builder.registry state bytes = (.ok (digest, next), changed)) :
    digest = sha256 bytes ∧ ∃ tx, codec.decode bytes = .ok tx ∧
      (BlockState.phase state = .recheck → builder.registry.contains digest = true) ∧
      (∃ txs, Admission.Executes codec tx txs ∧ replay (some verifier) state txs = .ok next) ∧
      builder.Takes (.ofParts tx bytes) (priorityIn next tx) { builder with registry := changed } := by
  have reached' := reached.submit state bytes
  rw [answered] at reached'
  obtain ⟨sealedTx, registry, decoded, pending, screened, inserted, rfl⟩ :=
    Admission.submit_eq_ok_iff.mp answered
  have alike := reached.alike_screen state sealedTx
  rw [screened] at alike
  have executes := Admission.executes_of_screen (congrArg Prod.fst screened)
  rw [reached.settled.2] at decoded executes
  obtain ⟨rfl, read⟩ := SealedTx.decode_eq_ok_iff.mp decoded
  have takes := reached.takes_of_admitted alike inserted reached'
  have whole : SealedTx.ofParts sealedTx.tx sealedTx.bytes = sealedTx := by
    obtain ⟨tx, bytes, digest, rfl⟩ := sealedTx
    rfl
  exact ⟨sealedTx.digest_eq, sealedTx.tx, read, pending, executes, whole.symm ▸ takes⟩

theorem Reached.holds_iff_of_takes (reached : Reached config codec verifier funds builder)
    (reached' : Reached config codec verifier funds after) (reads : codec.Reads sealedTx)
    (takes : builder.Takes sealedTx priority after)
    (known : builder.registry.contains sealedTx.digest = true)
    (distinct : ∀ other, builder.registry.Holds other → other.digest = sealedTx.digest →
      other.bytes = sealedTx.bytes) (other : SealedTx T) :
    after.registry.Holds other ↔ builder.registry.Holds other := by
  obtain ⟨own, meant, held, -⟩ := takes.held
  obtain ⟨lane, slot, before, same, there, digest⟩ := reached.exists_held_of_contains known
  obtain rfl : same = sealedTx := by
    have read : codec.Reads same := (reached.home_of_held there).2.2
    apply read.eq_of_bytes_eq reads
    exact distinct same (reached.holds_iff.mpr ⟨lane, slot, before, there⟩) digest
  obtain ⟨rfl, seat, -⟩ := reached.home_of_held there
  cases seat.symm.trans meant
  rw [reached.holds_iff, reached'.holds_iff]
  constructor
  · rintro ⟨lane, slot, priority, found⟩
    rw [held] at found
    split at found
    · cases found
      exact ⟨_, _, _, there⟩
    · exact ⟨lane, slot, priority, found⟩
  · rintro ⟨lane, slot, priority, found⟩
    by_cases here : lane = home same.tx ∧ slot = own
    · obtain ⟨rfl, rfl⟩ := here
      cases there.symm.trans found
      exact ⟨_, _, _, (held _ _).trans (if_pos ⟨rfl, rfl⟩)⟩
    · exact ⟨lane, slot, priority, (held lane slot).trans ((if_neg here).trans found)⟩

theorem Reached.contains_of_submit (reached : Reached config codec verifier funds builder)
    (admitted : (builder.submit state bytes).1.isOk = true) :
    (builder.submit state bytes).2.2.registry.contains (sha256 bytes) = true := by
  rw [submit_snd_snd]
  unfold Builder.submit at admitted
  rcases answered : builder.rules.submit builder.registry state bytes with ⟨cause | ⟨digest, next⟩, changed⟩
  · rw [answered] at admitted
    cases admitted
  · obtain ⟨-, tx, -, -, -, takes⟩ := reached.takes_of_submit answered
    exact takes.known

theorem Reached.holds_submit_iff (reached : Reached config codec verifier funds builder)
    (reads : codec.Reads sealedTx) (known : builder.registry.contains sealedTx.digest = true)
    (distinct : ∀ other, builder.registry.Holds other → other.digest = sealedTx.digest →
      other.bytes = sealedTx.bytes) (state : C) (other : SealedTx T) :
    (builder.rules.submit builder.registry state sealedTx.bytes).2.Holds other ↔
      builder.registry.Holds other := by
  have reached' := reached.submit state sealedTx.bytes
  rcases answered : builder.rules.submit builder.registry state sealedTx.bytes with
    ⟨cause | ⟨digest, next⟩, changed⟩
  · have unchanged := reached.unchanged_of_refused (congrArg Prod.fst answered)
    rw [answered] at reached' unchanged
    calc
      changed.Holds other ↔ ∃ lane slot priority, ({ builder with registry := changed } :
          Builder C T).held lane slot = some (priority, other) := reached'.holds_iff
      _ ↔ ∃ lane slot priority, builder.held lane slot = some (priority, other) := by
        simp only [unchanged.held]
      _ ↔ builder.registry.Holds other := reached.holds_iff.symm
  · rw [answered] at reached'
    obtain ⟨-, tx, read, -, -, takes⟩ := reached.takes_of_submit answered
    have again : codec.Reads (.ofParts tx sealedTx.bytes) := read
    rw [again.eq_of_bytes_eq reads rfl] at takes
    exact reached.holds_iff_of_takes reached' reads takes known distinct other

/-- A submission that is refused leaves everything unchanged. One that is admitted answers with the
digest of the bytes, leaves the state after the transaction and its bundle, and takes the transaction
into its slot; if it was pending already, the same transactions are pending as before. -/
theorem submit_atomic (reached : Reached config codec verifier funds builder) (state : C)
    (bytes : Bytes) :
    match builder.submit state bytes with
    | (.error _, left, after) => left = state ∧ builder.Unchanged after
    | (.ok digest, next, after) => digest = sha256 bytes ∧ ∃ tx, codec.decode bytes = .ok tx ∧
      (∃ txs, Admission.Executes codec tx txs ∧ replay (some verifier) state txs = .ok next) ∧
      builder.Takes (.ofParts tx bytes) (priorityIn next tx) after ∧
      (BlockState.phase state = .recheck →
        (∀ other, builder.registry.Holds other → other.digest = digest → other.bytes = bytes) →
        ∀ other, after.registry.Holds other ↔ builder.registry.Holds other) := by
  rcases answered : builder.rules.submit builder.registry state bytes with
    ⟨cause | ⟨digest, next⟩, changed⟩
  · have unchanged := reached.unchanged_of_refused (congrArg Prod.fst answered)
    simp only [submit, answered]
    rw [answered] at unchanged
    exact ⟨trivial, unchanged⟩
  · have reached' := reached.submit state bytes
    rw [answered] at reached'
    obtain ⟨rfl, tx, read, pending, executes, takes⟩ := reached.takes_of_submit answered
    simp only [submit, answered]
    have reads : codec.Reads (.ofParts tx bytes) := read
    exact ⟨trivial, tx, read, executes, takes, fun again distinct =>
      reached.holds_iff_of_takes reached' reads takes (pending again) distinct⟩

theorem exists_of_isOk (ok : (builder.submit state bytes).1.isOk = true) :
    ∃ digest next after, builder.submit state bytes = (.ok digest, next, after) := by
  rcases answered : builder.submit state bytes with ⟨cause | digest, next, after⟩
  · rw [answered] at ok
    cases ok
  · exact ⟨digest, next, after, rfl⟩

open HeldUp in
theorem contains_rival : (HeldUp.builder [[3], [4], [5]]).registry.contains rival.digest = true := by
  obtain ⟨lane, digest, next, -, -, -, answered⟩ := rival_admitted
  have admitted : ((HeldUp.builder [[3], [4]]).submit (HeldUp.state .check) [5]).1.isOk = true := by
    rw [submit_fst]
    exact congrArg (fun answer => (answer.map Prod.fst).isOk) answered
  have known := (HeldUp.reached [[3], [4]]).contains_of_submit admitted
  rwa [submit_snd_snd] at known

open HeldUp in
theorem eq_of_digest_eq_rival {other : SealedTx Ledger.Tx}
    (holds : (HeldUp.builder [[3], [4], [5]]).registry.Holds other) (same : other.digest = rival.digest) :
    other.bytes = rival.bytes := by
  obtain ⟨top, rest, lanes, bids, others, aligned, aligned'⟩ := exists_lanes_of_three
  have distinct : ([rival, low, high].map SealedTx.digest).Nodup :=
    distinct_digests [5, 3, 4] (by decide) (by decide)
  obtain ⟨lane, mem, held⟩ := holds
  rw [lanes] at mem
  rcases List.mem_pair.mp mem with rfl | rfl
  · have mem : other ∈ [rival, low, high] := bids ▸ aligned.mem_select_iff.mpr held
    rw [List.inj_on_of_nodup_map distinct mem List.mem_cons_self same]
  · have none : other ∈ rest.select.1 := aligned'.mem_select_iff.mpr held
    rw [others] at none
    cases none

open HeldUp in
/-- The bid of 100 is refused below the one of 150, and the one of 2000 is admitted again. When the one of
150 is checked again, it is admitted, and the same transactions are pending as before. -/
theorem submit_atomic_of_held_up :
    let builder := HeldUp.builder [[3], [4], [5]]
    (∃ cause after,
      builder.submit (HeldUp.state .check) [3] = (.error cause, HeldUp.state .check, after) ∧
        builder.Unchanged after) ∧
    (∃ next after, builder.submit (HeldUp.state .check) [4] = (.ok (sha256 [4]), next, after) ∧
      builder.Takes high (priorityIn next high.tx) after) ∧
    ∃ next after, builder.submit (HeldUp.state .recheck) [5] = (.ok (sha256 [5]), next, after) ∧
      builder.Takes rival (priorityIn next rival.tx) after ∧
      ∀ other, after.registry.Holds other ↔ builder.registry.Holds other := by
  have reached := HeldUp.reached [[3], [4], [5]]
  have refused : ((HeldUp.builder [[3], [4], [5]]).submit (HeldUp.state .check) [3]).1.isOk = false := by
    decide +kernel
  have admitted : ((HeldUp.builder [[3], [4], [5]]).submit (HeldUp.state .check) [4]).1.isOk = true := by
    decide +kernel
  have again : ((HeldUp.builder [[3], [4], [5]]).submit (HeldUp.state .recheck) [5]).1.isOk = true := by
    have read : SealedTx.decode (HeldUp.builder [[3], [4], [5]]).rules.codec [5] = .ok rival := rfl
    rw [submit, Admission.submit_of_known read contains_rival]
    decide +kernel
  have distinct (other : SealedTx Ledger.Tx) := @eq_of_digest_eq_rival other
  dsimp only
  generalize HeldUp.builder [[3], [4], [5]] = builder at *
  refine ⟨?_, ?_, ?_⟩
  · have atomic := submit_atomic reached (HeldUp.state .check) [3]
    rcases answered : builder.submit (HeldUp.state .check) [3] with ⟨cause | digest, left, after⟩
    · rw [answered] at atomic
      obtain ⟨rfl, unchanged⟩ := atomic
      exact ⟨cause, after, rfl, unchanged⟩
    · rw [answered] at refused
      cases refused
  · obtain ⟨digest, next, after, answered⟩ := exists_of_isOk admitted
    have atomic := submit_atomic reached (HeldUp.state .check) [4]
    rw [answered] at atomic
    obtain ⟨rfl, tx, read, -, takes, -⟩ := atomic
    cases read
    exact ⟨next, after, answered, takes⟩
  · obtain ⟨digest, next, after, answered⟩ := exists_of_isOk again
    have atomic := submit_atomic reached (HeldUp.state .recheck) [5]
    rw [answered] at atomic
    obtain ⟨rfl, tx, read, -, takes, kept⟩ := atomic
    cases read
    exact ⟨next, after, answered, takes, kept rfl distinct⟩

end Builder

end BlockBuilder
