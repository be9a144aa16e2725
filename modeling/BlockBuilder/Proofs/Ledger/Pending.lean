import BlockBuilder.Proofs.Builder.Atomicity
import BlockBuilder.Proofs.Builder.Carryover
import BlockBuilder.Proofs.Ledger.Rounds

namespace BlockBuilder.Ledger

def Tx.priority (tx : Tx) : UInt64 :=
  if Transaction.isBid tx then AuctionLane.priority tx else tx.fee.amount

theorem Rules.priority_of_check {rules : Rules} {state after : State} {tx : Tx}
    (executed : rules.check state tx = .ok after) : after.priority = tx.fee.amount := by
  obtain ⟨-, -, -, -, -, -, -, rfl⟩ := check_eq_ok_iff.mp executed
  rfl

namespace Node

variable {config : Config} {byteLimit : Nat} {rules : Rules} {submissions : List Bytes} {node : Node}
  {sealedTx other : SealedTx Tx} {digest : Digest}

inductive Played (config : Config) (byteLimit : Nat) (rules : Rules) : List Bytes → Node → Prop
  | start {node : Node} (created : create config byteLimit rules = .ok node) :
      Played config byteLimit rules [] node
  | fund {submissions : List Bytes} {node : Node} (played : Played config byteLimit rules submissions node)
      (account amount : UInt64) : Played config byteLimit rules submissions (node.fund account amount)
  | submit {submissions : List Bytes} {node : Node}
      (played : Played config byteLimit rules submissions node) (bytes : Bytes) :
      Played config byteLimit rules (bytes :: submissions) (node.submitBytes bytes).2
  | propose {submissions : List Bytes} {node : Node}
      (played : Played config byteLimit rules submissions node) :
      Played config byteLimit rules submissions node.propose.2.2
  | commit {submissions : List Bytes} {node next : Node} {block : List Bytes} {after : State}
      {evicted : Nat} (played : Played config byteLimit rules submissions node)
      (committed : node.commit block after = .ok (evicted, next)) :
      Played config byteLimit rules submissions next

theorem Played.submitAll (played : Played config byteLimit rules submissions node) (strings : List Bytes) :
    Played config byteLimit rules (strings.reverse ++ submissions)
      (strings.foldl (fun node bytes => (node.submitBytes bytes).2) node) := by
  induction strings generalizing submissions node with
  | nil => exact played
  | cons bytes rest ih =>
    rw [List.reverse_cons, List.append_assoc]
    exact ih (played.submit bytes)

def Sent (submissions : List Bytes) (_ : Nat) (priority : UInt64) (sealedTx : SealedTx Tx) : Prop :=
  Wire.codec.Reads sealedTx ∧ sealedTx.bytes ∈ submissions ∧ priority = sealedTx.tx.priority

/-- A node whose builder is a reached one, and which keeps nothing but what was submitted. -/
structure Keeps (config : Config) (rules : Rules) (submissions : List Bytes) (node : Node) : Prop where
  builder : Builder.Reached config Wire.codec rules.verifier State.funds node.builder
  evolves : Evolves (Sent submissions)
    (Builder.fresh config Wire.codec rules.verifier State.funds).registry.lanes node.registry.lanes

theorem Keeps.sent_of_screened (keeps : node.Keeps config rules submissions) {bytes : Bytes}
    {position : Nat} {priority : UInt64} {state next : State}
    (read : SealedTx.decode node.builder.rules.codec bytes = .ok sealedTx)
    (valid : (node.builder.rules.screen node.registry state sealedTx).1 = .ok next)
    (routed : Routed node.registry.lanes next sealedTx position priority) :
    Sent (bytes :: submissions) position priority sealedTx := by
  obtain ⟨reads, admitted⟩ :=
    keeps.builder.admitted_of_screened ⟨bytes, state, next, read, valid, routed⟩
  obtain ⟨same, -⟩ := SealedTx.decode_eq_ok_iff.mp read
  refine ⟨reads, same ▸ List.mem_cons_self, ?_⟩
  split at admitted
  · obtain ⟨bid, made, rfl⟩ := admitted
    rw [Tx.priority, if_pos (isBid_of_made made), priority_of_made made]
  · -- what is no bid goes to the second lane, under the fee
    rename_i below
    obtain ⟨first, under⟩ := routed_map_bare_iff.mpr routed
    rw [show node.registry.lanes.map StandardLane.bare = _ from keeps.builder.madeFrom.bare] at first under
    have second : position = 1 := by
      simpa [Builder.bareLanes, List.findIdx?_cons, StandardLane.accepts,
        Builder.generalLane_accepts_eq, admitted, eq_comm] using first
    subst second
    have fee : BlockState.priority next = priority := by
      simpa [Builder.bareLanes, StandardLane.priorityOf] using under
    rw [keeps.builder.settled.2] at valid
    rcases Admission.screen_eq_ok_iff.mp valid with ⟨-, executed⟩ | ⟨bid, made, -⟩
    · have checked : rules.check state sealedTx.tx = .ok next := mapError_eq_ok_iff.mp executed
      rw [Tx.priority, if_neg (by simp [admitted]), ← fee]
      exact Rules.priority_of_check checked
    · cases (isBid_of_made made).symm.trans admitted

theorem Keeps.submitBytes (keeps : node.Keeps config rules submissions) (bytes : Bytes) :
    (node.submitBytes bytes).2.Keeps config rules (bytes :: submissions) := by
  have step := Admission.evolves_submit node.builder.rules node.registry node.checkState bytes
  constructor
  · rw [builder_submitBytes]
    exact keeps.builder.submit node.checkState bytes
  · rw [registry, builder_submitBytes]
    refine (keeps.evolves.mono ?_).trans (step.mono ?_)
    · rintro position priority sealedTx ⟨reads, sent, same⟩
      exact ⟨reads, List.mem_cons_of_mem bytes sent, same⟩
    · rintro position priority sealedTx ⟨read, next, valid, routed⟩
      exact keeps.sent_of_screened read valid routed

theorem Keeps.submitBytes_of_mem (keeps : node.Keeps config rules submissions) {bytes : Bytes}
    (sent : bytes ∈ submissions) : (node.submitBytes bytes).2.Keeps config rules submissions := by
  have submitted := keeps.submitBytes bytes
  refine ⟨submitted.builder, submitted.evolves.mono ?_⟩
  rintro position priority sealedTx ⟨reads, listed, same⟩
  rcases List.mem_cons.mp listed with own | before
  · exact ⟨reads, own ▸ sent, same⟩
  · exact ⟨reads, before, same⟩

theorem Keeps.sent_of_holds (keeps : node.Keeps config rules submissions)
    (holds : node.registry.Holds sealedTx) :
    Wire.codec.Reads sealedTx ∧ sealedTx.bytes ∈ submissions := by
  obtain ⟨lane, mem, held⟩ := holds
  obtain ⟨position, found⟩ := List.mem_iff_getElem?.mp mem
  obtain ⟨priority, reads, sent, -⟩ :=
    (keeps.evolves.stocked Builder.blank_fresh position found).of_holds held
  exact ⟨reads, sent⟩

theorem Keeps.eq_of_digest_eq (keeps : node.Keeps config rules submissions)
    (collisionless : Collisionless submissions) (first : node.registry.Holds sealedTx)
    (second : node.registry.Holds other) (same : sealedTx.digest = other.digest) : sealedTx = other := by
  obtain ⟨reads, sent⟩ := keeps.sent_of_holds first
  obtain ⟨reads', sent'⟩ := keeps.sent_of_holds second
  rw [sealedTx.digest_eq, other.digest_eq] at same
  exact reads.eq_of_bytes_eq reads' (collisionless _ sent _ sent' same)

theorem Keeps.housed (keeps : node.Keeps config rules submissions)
    (collisionless : Collisionless submissions) : node.registry.Housed where
  aligned mem := by
    obtain ⟨position, found⟩ := List.mem_iff_getElem?.mp mem
    exact (keeps.evolves.stocked Builder.blank_fresh position found).aligned
  indexes mem := by
    refine keeps.evolves.indexes Builder.blank_fresh ?_ mem
    rintro - - first - second ⟨reads, sent, -⟩ ⟨reads', sent', -⟩ same
    rw [first.digest_eq, second.digest_eq] at same
    rw [reads.eq_of_bytes_eq reads' (collisionless _ sent _ sent' same)]
  nonempty _ := ⟨{}⟩
  first {position lane} found {sealedTx} holds state := by
    obtain ⟨bids, others, lanes, auction, general⟩ := keeps.builder.lanes
    rw [show node.registry.lanes = _ from lanes] at found ⊢
    match position with
    | 0 =>
      cases found
      obtain ⟨-, -, bid, made, -⟩ := auction.of_holds holds
      simp [List.findIdx?_cons, StandardLane.accepts, isBid_of_made made]
    | 1 =>
      cases found
      obtain ⟨_, -, noBid⟩ := general.of_holds holds
      rw [if_neg Nat.one_ne_zero] at noBid
      simp [List.findIdx?_cons, StandardLane.accepts, GeneralLane.accepts, Builder.generalLane, noBid]
  distinct first second same := by rw [keeps.eq_of_digest_eq collisionless first second same]

theorem Keeps.held_iff (keeps : node.Keeps config rules submissions) {lane : String} {slot : Slot}
    {priority : UInt64} : node.builder.held lane slot = some (priority, sealedTx) ↔
      node.registry.Holds sealedTx ∧ lane = Builder.home sealedTx.tx ∧ sealedTx.slot? = some slot ∧
        priority = sealedTx.tx.priority := by
  have forward {lane slot priority}
      (held : node.builder.held lane slot = some (priority, sealedTx)) :
      node.registry.Holds sealedTx ∧ lane = Builder.home sealedTx.tx ∧ sealedTx.slot? = some slot ∧
        priority = sealedTx.tx.priority := by
    obtain ⟨home, seat, -⟩ := keeps.builder.home_of_held held
    refine ⟨keeps.builder.holds_iff.mpr ⟨lane, slot, priority, held⟩, home, seat, ?_⟩
    obtain ⟨bids, others, lanes, auction, general⟩ :=
      Builder.exists_lanes_of_evolves keeps.builder.settled.1 keeps.evolves
    rw [Builder.held_eq node.builder lanes] at held
    split at held
    · exact (auction.held held).2.2
    · split at held
      · exact (general.held held).2.2
      · cases held
  constructor
  · exact forward
  · rintro ⟨holds, rfl, seat, rfl⟩
    obtain ⟨lane, slot', priority, held⟩ := keeps.builder.holds_iff.mp holds
    obtain ⟨-, rfl, seat', rfl⟩ := forward held
    cases seat.symm.trans seat'
    exact held

theorem Keeps.held_eq_of_holds_iff {again : Node} (keeps : node.Keeps config rules submissions)
    (keeps' : again.Keeps config rules submissions)
    (same : ∀ other, again.registry.Holds other ↔ node.registry.Holds other) (lane : String) (slot : Slot) :
    again.builder.held lane slot = node.builder.held lane slot := by
  apply Option.ext
  rintro ⟨priority, sealedTx⟩
  rw [keeps'.held_iff, keeps.held_iff, same]

theorem Keeps.removeCommitted (keeps : node.Keeps config rules submissions) (txs : List (SealedTx Tx)) :
    (node.withRegistry (node.registry.removeCommitted txs).2).Keeps config rules submissions :=
  ⟨keeps.builder.removeCommitted txs, keeps.evolves.trans (Registry.evolves_removeCommitted _ txs)⟩

theorem Keeps.select (keeps : node.Keeps config rules submissions) :
    (node.withRegistry node.registry.select.2).Keeps config rules submissions :=
  ⟨keeps.builder.select, keeps.evolves.trans (Registry.evolves_select _)⟩

theorem Keeps.remove (keeps : node.Keeps config rules submissions)
    {registry : Registry (StandardLane State Tx)} (removed : node.registry.remove digest = .ok registry) :
    (node.withRegistry registry).Keeps config rules submissions :=
  ⟨keeps.builder.remove removed, keeps.evolves.trans (Registry.evolves_remove removed)⟩

theorem Keeps.recheck (keeps : node.Keeps config rules submissions) {pending : List (SealedTx Tx)}
    (sent : ∀ sealedTx ∈ pending, sealedTx.bytes ∈ submissions) :
    (node.recheck pending).2.Keeps config rules submissions := by
  induction pending generalizing node with
  | nil => exact keeps
  | cons sealedTx rest ih =>
    obtain ⟨own, sent⟩ := List.forall_mem_cons.mp sent
    have submitted := keeps.submitBytes_of_mem own
    rw [Node.recheck]
    split
    · rename_i same
      rw [same] at submitted
      exact ih submitted sent
    · rename_i same
      rw [same] at submitted
      split
      · rename_i removed
        exact ih (submitted.remove removed) sent
      · exact ih submitted sent

end Node

end BlockBuilder.Ledger
