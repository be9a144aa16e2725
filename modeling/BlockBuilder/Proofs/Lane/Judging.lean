import BlockBuilder.Proofs.Lane.Building
import BlockBuilder.Proofs.Lane.Claim

namespace BlockBuilder

variable {C T : Type} [Transaction T] [BlockState C]

structure GeneralLane.Takes (lane : GeneralLane C T) (state : C) (txs : List (SealedTx T)) (after : C) :
    Prop where
  accepted : ∀ sealedTx ∈ txs, lane.accepts state sealedTx.tx = true
  valid : replay lane.settings.verifier state (txs.map SealedTx.tx) = .ok after

namespace StandardLane

def Takes : StandardLane C T → C → List (SealedTx T) → C → Prop
  | .auction lane => lane.Takes
  | .general lane => lane.Takes

theorem claim_eq_ok_iff {lane : StandardLane C T} {draft extended : Draft} {state after : C}
    {txs rest : List (SealedTx T)} :
    (BlockLane.claim lane draft txs).outcome state = (.ok (extended, rest), after) ↔
      ∃ own, txs = own ++ rest ∧ lane.Takes state own after ∧
        (∀ sealedTx ∈ rest, lane.accepts state sealedTx.tx = false) ∧
        draft.add (BlockLane.name lane) (BlockLane.share lane) own = .ok extended := by
  cases lane with
  | auction lane => exact AuctionLane.claim_eq_ok_iff
  | general lane =>
    refine GeneralLane.claim_eq_ok_iff.trans (exists_congr fun own => ?_)
    constructor
    · rintro ⟨split, accepted, refused, valid, added⟩
      exact ⟨split, ⟨accepted, valid⟩, refused, added⟩
    · rintro ⟨split, takes, refused, added⟩
      exact ⟨split, takes.accepted, refused, takes.valid, added⟩

end StandardLane

namespace Chain

inductive Claimed : List (StandardLane C T) → Draft → C → List (SealedTx T) → Draft → C → Prop
  | nil {draft : Draft} {state : C} : Claimed [] draft state [] draft state
  | cons {lane : StandardLane C T} {rest : List (StandardLane C T)} {draft extended final : Draft}
      {state middle after : C} {own others : List (SealedTx T)} (takes : lane.Takes state own middle)
      (refused : ∀ sealedTx ∈ others, lane.accepts state sealedTx.tx = false)
      (added : draft.add (BlockLane.name lane) (BlockLane.share lane) own = .ok extended)
      (later : Claimed rest extended middle others final after) :
      Claimed (lane :: rest) draft state (own ++ others) final after

theorem judge_eq_ok_iff {lanes : List (StandardLane C T)} {draft final : Draft} {state after : C}
    {txs : List (SealedTx T)} :
    (judge lanes draft txs).outcome state = (.ok final, after) ↔
      Claimed lanes draft state txs final after := by
  induction lanes generalizing draft state txs with
  | nil =>
    rw [judge_nil_eq_ok_iff]
    constructor
    · rintro ⟨rfl, rfl, rfl⟩
      exact .nil
    · intro claimed
      cases claimed
      exact ⟨rfl, rfl, rfl⟩
  | cons lane rest ih =>
    rw [judge_cons_eq_ok_iff]
    simp only [StandardLane.claim_eq_ok_iff, ih]
    constructor
    · rintro ⟨extended, others, middle, ⟨own, rfl, takes, refused, added⟩, later⟩
      exact .cons takes refused added later
    · intro claimed
      obtain _ | ⟨takes, refused, added, later⟩ := claimed
      exact ⟨_, _, _, ⟨_, rfl, takes, refused, added⟩, later⟩

end Chain

end BlockBuilder
