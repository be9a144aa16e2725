import BlockBuilder.Ledger.Wire
import BlockBuilder.Proofs.Lane.Building
import BlockBuilder.Proofs.Lane.Evolution

/-!
# Lanes that fail

Lanes contribute one after another, each to what the lanes before it lead to (`build_cons`,
`build_append`). A lane whose contribution the draft refuses hands on what it was given, so the block,
the state and the other lanes are what they would be without it (`build_isolates`).
-/
namespace BlockBuilder

variable {C T : Type} [Transaction T] [BlockState C]

/-- The lane fails at its turn: the draft refuses what it has to contribute. -/
def StandardLane.Fails (lane : StandardLane C T) (draft : Draft) (state : C) : Prop :=
  ∃ cause, (lane.contribute draft (draft.allowance lane.settings.limits.share) state).result =
    .error cause

theorem StandardLane.fails_iff {lane : StandardLane C T} {draft : Draft} {state : C} :
    lane.Fails draft state ↔ ∃ general, lane = .general general ∧ ∃ cause,
      draft.add general.name general.settings.limits.share (general.select.2.pick draft
        (draft.allowance general.settings.limits.share) general.select.1 0 state).chosen =
          .error cause := by
  cases lane with
  | auction lane =>
    constructor
    · rintro ⟨cause, failed⟩
      cases failed
    · rintro ⟨general, same, -⟩
      cases same
  | general lane =>
    constructor
    · rintro ⟨cause, failed⟩
      exact ⟨lane, rfl, cause, failed⟩
    · rintro ⟨general, same, cause, failed⟩
      cases same
      exact ⟨cause, failed⟩

theorem StandardLane.fails_of_repeated {lane : GeneralLane C T} {draft : Draft} {state next : C}
    {first : SealedTx T} {rest : List (SealedTx T)}
    (known : (draft.contribution? lane.name).isSome = true)
    (selected : lane.select.1 = first :: rest) (accepted : lane.accepts state first.tx = true)
    (new : draft.contains first.digest = false)
    (small : addCapped 0 first.size ≤ draft.allowance lane.settings.limits.share)
    (valid : lane.settings.verify state first.tx false = .ok next) :
    Fails (.general lane) draft state := by
  refine fails_iff.mpr ⟨lane, rfl, .repeatedLane lane.name, ?_⟩
  have accepted : lane.select.2.accepts state first.tx = true := accepted
  have valid : lane.select.2.settings.verify state first.tx false = .ok next := valid
  rw [selected, GeneralLane.pick]
  simp [accepted, new, Nat.not_lt.mpr small, valid, Draft.add, known, GeneralLane.Picks.choose]

namespace Chain

variable {draft turn : Draft} {state : C}

theorem build_append (first second : List (StandardLane C T))
    (reached : (build first draft state).result = .ok turn) :
    build (first ++ second) draft state =
      let later := build second turn (build first draft state).state
      ⟨later.result, (build first draft state).lanes ++ later.lanes, later.state⟩ := by
  induction first generalizing draft state with
  | nil =>
    cases reached
    rfl
  | cons lane rest ih =>
    rw [build_cons] at reached
    rw [List.cons_append, build_cons, build_cons]
    dsimp only at reached ⊢
    split
    · rename_i extended given
      rw [given] at reached
      rw [ih reached]
      rfl
    · rename_i refused
      rw [refused] at reached
      rw [ih reached]
      rfl

theorem length_build (lanes : List (StandardLane C T)) (draft : Draft) (state : C) :
    (build lanes draft state).lanes.length = lanes.length := by
  have evolves : Evolves (fun _ _ _ => True) lanes (build lanes draft state).lanes :=
    evolves_buildUpTo ..
  simpa using congrArg List.length evolves.map_bare

/-- Building extends the draft that it starts from. Where a lane fails on what the lanes before it
lead to, the block, the state and the other lanes are those of the chain without that lane. -/
theorem build_isolates (lanes : List (StandardLane C T)) (draft : Draft) (state : C) :
    ∃ final, (build lanes draft state).result = .ok final ∧
      draft.txs <+: final.txs ∧ final.limit = draft.limit ∧
      ∀ before lane after turn, lanes = before ++ lane :: after →
        (build before draft state).result = .ok turn →
        lane.Fails turn (build before draft state).state →
        ∃ first own last, first.length = before.length ∧
          (build lanes draft state).lanes = first ++ own :: last ∧
          build (before ++ after) draft state =
            ⟨.ok final, first ++ last, (build lanes draft state).state⟩ := by
  obtain ⟨txs, final, ok, built⟩ := built_buildUpTo lanes.length lanes draft state
  have result : (build lanes draft state).result = .ok final := ok
  refine ⟨final, result, ⟨_, built.bytes.symm⟩, built.limit, ?_⟩
  rintro before lane after turn rfl reached ⟨cause, failed⟩
  have whole := build_append before (lane :: after) reached
  rw [build_cons] at whole
  simp only [failed] at whole
  have without := build_append before after reached
  refine ⟨(build before draft state).lanes, _, (build after turn (build before draft state).state).lanes,
    length_build .., congrArg Attempt.lanes whole, ?_⟩
  rw [without, ← result, whole]
  rfl

section Example

open Ledger

def pending (place : UInt8) : SealedTx Tx :=
  .ofParts (.transfer (.ofIndex place.toUInt64) 0 0) [place]

def ledgerLane (name : String) (place : UInt8) : GeneralLane State Tx where
  name := name
  settings := ⟨Wire.codec, some (Rules.verifier {}), {}⟩
  pool := (Pool.empty {}).place 0 (.ofIndex place.toUInt64) 0 (pending place)

theorem build_isolates_of_repeated_lane :
    let draft := (Draft.empty 1000).append "default" [pending 4]
    let state := State.empty 1 .prepare 1000
    let lane := .general (ledgerLane "default" 2)
    let after := [.general (ledgerLane "last" 3)]
    ∃ final first own last, StandardLane.Fails lane draft state ∧
      draft.txs <+: final.txs ∧ first.length = 0 ∧
      (build (lane :: after) draft state).lanes = first ++ own :: last ∧
      build after draft state = ⟨.ok final, first ++ last, (build (lane :: after) draft state).state⟩ := by
  intro draft state lane after
  have fails : lane.Fails draft state := by
    have new : draft.contains (pending 2).digest = false := by
      have other : (pending 2).digest ≠ (pending 4).digest := by decide +kernel
      simp [draft, other]
    have valid : ((ledgerLane "default" 2).settings.verify state (pending 2).tx false).isOk = true := by
      decide
    cases verified : (ledgerLane "default" 2).settings.verify state (pending 2).tx false with
    | error cause =>
      rw [verified] at valid
      cases valid
    | ok next => exact StandardLane.fails_of_repeated rfl rfl rfl new (by decide) verified
  obtain ⟨final, ok, starts, -, isolates⟩ := build_isolates (lane :: after) draft state
  obtain ⟨first, own, last, length, lanes, without⟩ := isolates [] lane after draft rfl rfl fails
  exact ⟨final, first, own, last, fails, starts, length, lanes, without⟩

end Example

end Chain

end BlockBuilder
