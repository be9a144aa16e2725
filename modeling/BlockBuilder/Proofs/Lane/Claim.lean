import BlockBuilder.Lane.Chain
import BlockBuilder.Lane.Standard
import BlockBuilder.Proofs.Auction.Rule
import BlockBuilder.Proofs.Draft.Adding

namespace BlockBuilder

variable {C T : Type} [Transaction T] [BlockState C] {draft extended : Draft}
  {txs rest : List (SealedTx T)} {state after : C}

namespace AuctionLane

variable {lane : AuctionLane C T}

omit [BlockState C] in
theorem refuseBids_eq_ok_iff {done : Unit} :
    refuseBids txs = .ok done ↔ ∀ sealedTx ∈ txs, Transaction.isBid sealedTx.tx = false := by
  unfold refuseBids
  cases found : txs.find? fun sealedTx => Transaction.isBid sealedTx.tx with
  | none => simpa using found
  | some bidTx =>
    have mem := List.mem_of_find?_eq_some found
    have isBid : Transaction.isBid bidTx.tx = true := by simpa using List.find?_some found
    simp only [reduceCtorEq, false_iff]
    intro none
    exact absurd isBid (by simp [none bidTx mem])

omit [Transaction T] [BlockState C] in
theorem firstMismatch?_eq_none_iff {bundle found : List (SealedTx T)}
    (enough : bundle.length ≤ found.length) :
    firstMismatch? bundle found = none ↔
      (found.take bundle.length).map SealedTx.bytes = bundle.map SealedTx.bytes := by
  unfold firstMismatch?
  induction bundle generalizing found with
  | nil => simp
  | cons expected others ih =>
    cases found with
    | nil => simp at enough
    | cons first found =>
      rw [List.length_cons, List.length_cons, Nat.add_le_add_iff_right] at enough
      by_cases same : expected.bytes = first.bytes
      · simpa [List.findIdx?_cons, same] using ih enough
      · simp [List.findIdx?_cons, same, Ne.symm same]

theorem claim_of_noBids (none : ∀ sealedTx ∈ txs, Transaction.isBid sealedTx.tx = false) :
    (lane.claim draft txs).outcome state = (.ok (draft, txs), state) := by
  cases txs with
  | nil => rfl
  | cons first others =>
    rw [claim, if_neg (by simp [none first List.mem_cons_self]), Run.outcome_bind_eq_ok]
    exact ⟨(), state, Run.outcome_ofExcept_eq_ok.mpr ⟨refuseBids_eq_ok_iff.mpr none, rfl⟩, rfl⟩

theorem claim_cons_of_isBid {bidTx : SealedTx T} (isBid : Transaction.isBid bidTx.tx = true) :
    (lane.claim draft (bidTx :: txs)).outcome state = (.ok (extended, rest), after) ↔
      ∃ bid bundle, (lane.verifyBid bidTx).outcome state = (.ok (bid, bundle), after) ∧
        bundle.length ≤ txs.length ∧
        (txs.take bundle.length).map SealedTx.bytes = bundle.map SealedTx.bytes ∧
        rest = txs.drop bundle.length ∧
        (∀ sealedTx ∈ rest, Transaction.isBid sealedTx.tx = false) ∧
        draft.add name lane.share (bidTx :: txs.take bundle.length) = .ok extended := by
  rw [claim, if_pos isBid, Run.outcome_bind_eq_ok]
  simp only [Prod.exists, Run.outcome_check_eq_ok, Nat.not_lt]
  refine exists_congr fun bid => exists_congr fun bundle => ?_
  constructor
  · rintro ⟨middle, verified, enough, claimed⟩
    cases mismatch : firstMismatch? bundle txs with
    | some position => simp [mismatch] at claimed
    | none =>
      simp only [mismatch, Run.outcome_bind_eq_ok, Run.outcome_ofExcept_eq_ok,
        Run.outcome_pure_eq_ok, refuseBids_eq_ok_iff, Prod.mk.injEq] at claimed
      obtain ⟨-, _, ⟨noBids, rfl⟩, _, _, ⟨added, rfl⟩, ⟨rfl, rfl⟩, rfl⟩ := claimed
      exact ⟨verified, enough, (firstMismatch?_eq_none_iff enough).mp mismatch, rfl, noBids, added⟩
  · rintro ⟨verified, enough, same, rfl, noBids, added⟩
    refine ⟨after, verified, enough, ?_⟩
    simp only [(firstMismatch?_eq_none_iff enough).mpr same, Run.outcome_bind_eq_ok,
      Run.outcome_ofExcept_eq_ok, Run.outcome_pure_eq_ok, refuseBids_eq_ok_iff, Prod.mk.injEq]
    exact ⟨(), after, ⟨noBids, rfl⟩, extended, after, ⟨added, rfl⟩, ⟨rfl, trivial⟩, rfl⟩

inductive Takes (lane : AuctionLane C T) (state : C) : List (SealedTx T) → C → Prop
  | nothing : lane.Takes state [] state
  | bid {bidTx : SealedTx T} {found : List (SealedTx T)} {bid : Bid} {bundle : List (SealedTx T)}
      {after : C} (verified : (lane.verifyBid bidTx).outcome state = (.ok (bid, bundle), after))
      (same : found.map SealedTx.bytes = bundle.map SealedTx.bytes) :
      lane.Takes state (bidTx :: found) after

theorem takes_of_bidPart (part : BidPart lane.settings lane.terms lane.funds state txs after) :
    lane.Takes state txs after := by
  cases part with
  | nothing => exact .nothing
  | bid holds => exact .bid (verifyBid_eq_ok_iff.mpr holds) rfl

theorem claim_eq_ok_iff :
    (lane.claim draft txs).outcome state = (.ok (extended, rest), after) ↔
      ∃ top, txs = top ++ rest ∧ lane.Takes state top after ∧
        (∀ sealedTx ∈ rest, Transaction.isBid sealedTx.tx = false) ∧
        draft.add name lane.share top = .ok extended := by
  constructor
  · intro claimed
    by_cases none : ∀ sealedTx ∈ txs, Transaction.isBid sealedTx.tx = false
    · rw [claim_of_noBids none] at claimed
      cases claimed
      exact ⟨[], rfl, .nothing, none, rfl⟩
    · cases txs with
      | nil => simp at none
      | cons bidTx found =>
        by_cases isBid : Transaction.isBid bidTx.tx = true
        · obtain ⟨bid, bundle, verified, enough, same, rfl, noBids, added⟩ :=
            (claim_cons_of_isBid isBid).mp claimed
          exact ⟨bidTx :: found.take bundle.length, by simp, .bid verified same, noBids, added⟩
        · rw [claim, if_neg isBid, Run.outcome_bind_eq_ok] at claimed
          obtain ⟨_, _, refused, -⟩ := claimed
          rw [Run.outcome_ofExcept_eq_ok, refuseBids_eq_ok_iff] at refused
          exact absurd refused.1 none
  · rintro ⟨top, rfl, takes, noBids, added⟩
    cases takes with
    | nothing =>
      cases added
      exact claim_of_noBids noBids
    | @bid bidTx found bid bundle _ verified same =>
      have isBid := (verifyBid_eq_ok_iff.mp verified).isBid
      have length : found.length = bundle.length := by simpa using congrArg List.length same
      refine (claim_cons_of_isBid isBid).mpr ⟨bid, bundle, verified, ?_, ?_, ?_, noBids, ?_⟩
      · simp [length]
      · simpa [← length] using same
      · simp [← length]
      · simpa [← length] using added

end AuctionLane

namespace GeneralLane

variable {lane : GeneralLane C T}

omit [Transaction T] [BlockState C] in
theorem claim_eq_ok_iff :
    (lane.claim draft txs).outcome state = (.ok (extended, rest), after) ↔
      ∃ ours, txs = ours ++ rest ∧ (∀ sealedTx ∈ ours, lane.accepts state sealedTx.tx = true) ∧
        (∀ sealedTx ∈ rest, lane.accepts state sealedTx.tx = false) ∧
        replay lane.settings.verifier state (ours.map SealedTx.tx) = .ok after ∧
        draft.add lane.name lane.settings.limits.share ours = .ok extended := by
  rw [claim, Run.outcome_bind_eq_ok]
  simp only [Run.outcome_get_eq_ok]
  constructor
  · rintro ⟨_, _, ⟨rfl, rfl⟩, claimed⟩
    cases stray : (txs.dropWhile fun sealedTx => lane.accepts state sealedTx.tx).find?
        fun sealedTx => lane.accepts state sealedTx.tx with
    | some sealedTx => simp [stray] at claimed
    | none =>
      simp only [stray, Run.outcome_bind_eq_ok, LaneSettings.outcome_verifyAll_eq_ok,
        Run.outcome_ofExcept_eq_ok, Run.outcome_pure_eq_ok, Prod.mk.injEq] at claimed
      obtain ⟨-, _, ran, _, _, ⟨added, rfl⟩, ⟨rfl, rfl⟩, rfl⟩ := claimed
      refine ⟨_, List.takeWhile_append_dropWhile.symm, ?_, by simpa using stray, ran, added⟩
      exact List.all_eq_true.mp List.all_takeWhile
  · rintro ⟨ours, rfl, accepted, refused, ran, added⟩
    refine ⟨state, state, ⟨rfl, rfl⟩, ?_⟩
    have front : (ours ++ rest).takeWhile (fun sealedTx => lane.accepts state sealedTx.tx) = ours := by
      rw [List.takeWhile_append_of_pos accepted]
      cases rest with
      | nil => simp
      | cons first others => simp [refused first List.mem_cons_self]
    have back : (ours ++ rest).dropWhile (fun sealedTx => lane.accepts state sealedTx.tx) = rest := by
      rw [List.dropWhile_append_of_pos accepted]
      cases rest with
      | nil => simp
      | cons first others => simp [refused first List.mem_cons_self]
    have none : rest.find? (fun sealedTx => lane.accepts state sealedTx.tx) = none := by
      simpa using refused
    simp only [front, back, none, Run.outcome_bind_eq_ok, LaneSettings.outcome_verifyAll_eq_ok,
      Run.outcome_ofExcept_eq_ok, Run.outcome_pure_eq_ok, Prod.mk.injEq]
    exact ⟨(), after, ran, extended, after, ⟨added, rfl⟩, ⟨rfl, trivial⟩, rfl⟩

end GeneralLane

namespace Chain

variable {L : Type} [BlockLane L C T]

omit [Transaction T] [BlockState C] in
theorem judge_nil_eq_ok_iff :
    (judge ([] : List L) draft txs).outcome state = (.ok extended, after) ↔
      txs = [] ∧ extended = draft ∧ after = state := by
  cases txs with
  | nil => simp [judge, eq_comm]
  | cons first others => simp [judge]

omit [Transaction T] [BlockState C] in
theorem judge_cons_eq_ok_iff {lane : L} {others : List L} :
    (judge (lane :: others) draft txs).outcome state = (.ok extended, after) ↔
      ∃ claimed rest middle, (BlockLane.claim lane draft txs).outcome state =
          (.ok (claimed, rest), middle) ∧
        (judge others claimed rest).outcome middle = (.ok extended, after) := by
  rw [judge, Run.outcome_bind_eq_ok]
  simp only [Prod.exists]

end Chain

end BlockBuilder
