import BlockBuilder.Proofs.Lane.Outcome

namespace BlockBuilder

variable {C T : Type} {verifier : Option (Verifier C T)} {state middle after : C}

def execute (verifier : Option (Verifier C T)) (state : C) (tx : T) : Except String C :=
  match verifier with
  | none => .ok state
  | some verifier => verifier state tx false

def replay (verifier : Option (Verifier C T)) (state : C) (txs : List T) : Except String C :=
  txs.foldlM (execute verifier) state

@[simp] theorem replay_nil : replay verifier state [] = .ok state := rfl

theorem replay_cons_eq_ok {tx : T} {rest : List T} :
    replay verifier state (tx :: rest) = .ok after ↔
      ∃ middle, execute verifier state tx = .ok middle ∧ replay verifier middle rest = .ok after := by
  rw [replay, List.foldlM_cons, bind_eq_ok_iff]
  rfl

theorem replay_append_eq_ok {first second : List T} :
    replay verifier state (first ++ second) = .ok after ↔
      ∃ middle, replay verifier state first = .ok middle ∧
        replay verifier middle second = .ok after := by
  rw [replay, List.foldlM_append, bind_eq_ok_iff]
  rfl

theorem replay_induction (kept : C → Prop)
    (step : ∀ state tx after, execute verifier state tx = .ok after → kept state → kept after)
    (txs : List T) (ran : replay verifier state txs = .ok after) (start : kept state) :
    kept after := by
  induction txs generalizing state with
  | nil =>
    cases ran
    exact start
  | cons tx rest ih =>
    obtain ⟨middle, first, ran⟩ := replay_cons_eq_ok.mp ran
    exact ih ran (step state tx middle first start)

def Respects (verifier : Option (Verifier C T)) (relates : C → C → Prop) : Prop :=
  ∀ left right tx after, relates left right → execute verifier left tx = .ok after →
    ∃ other, execute verifier right tx = .ok other ∧ relates after other

theorem respects_eq (verifier : Option (Verifier C T)) : Respects verifier Eq := by
  rintro left right tx after rfl valid
  exact ⟨after, valid, rfl⟩

theorem replay_respects {relates : C → C → Prop} (respects : Respects verifier relates)
    {left right : C} (related : relates left right) {txs : List T}
    (ran : replay verifier left txs = .ok after) :
    ∃ other, replay verifier right txs = .ok other ∧ relates after other := by
  induction txs generalizing left right with
  | nil =>
    cases ran
    exact ⟨right, rfl, related⟩
  | cons tx rest ih =>
    obtain ⟨middle, first, ran⟩ := replay_cons_eq_ok.mp ran
    obtain ⟨otherMiddle, otherFirst, related⟩ := respects _ _ _ _ related first
    obtain ⟨other, otherRan, related⟩ := ih related ran
    exact ⟨other, replay_cons_eq_ok.mpr ⟨otherMiddle, otherFirst, otherRan⟩, related⟩

namespace LaneSettings

variable {settings : LaneSettings C T}

theorem verify_eq_ok_iff {tx : T} :
    settings.verify state tx false = .ok after ↔ execute settings.verifier state tx = .ok after := by
  unfold verify execute
  cases settings.verifier with
  | none => simp
  | some verifier => exact mapError_eq_ok_iff

theorem outcome_verifyAll_eq_ok {txs : List (SealedTx T)} {done : Unit} :
    (settings.verifyAll txs).outcome state = (.ok done, after) ↔
      replay settings.verifier state (txs.map SealedTx.tx) = .ok after := by
  induction txs generalizing state with
  | nil => simp [verifyAll]
  | cons sealedTx rest ih =>
    rw [verifyAll, Run.outcome_bind_eq_ok, List.map_cons, replay_cons_eq_ok]
    simp only [Run.outcome_advance_eq_ok, verify_eq_ok_iff, ih, exists_const]

end LaneSettings

section Phases

variable [BlockState C] {left right : C}

structure SameButPhase (left right : C) : Prop where
  height : BlockState.height left = BlockState.height right
  priority : BlockState.priority left = BlockState.priority right
  byteLimit : BlockState.byteLimit left = BlockState.byteLimit right
  inPhase : ∀ phase, BlockState.inPhase left phase = BlockState.inPhase right phase

structure SameBlock (left right : C) : Prop extends SameButPhase left right where
  submission : (BlockState.phase left).isSubmission = (BlockState.phase right).isSubmission

/-- A verifier that does not look at the phase: on states that differ in nothing else it accepts
the same transactions, and the states afterwards differ in nothing else either. -/
def Verifier.IgnoresPhase (verifier : Verifier C T) : Prop :=
  ∀ (left right : C) (tx : T) (after : C), SameButPhase left right →
    verifier left tx false = .ok after →
      ∃ other, verifier right tx false = .ok other ∧ SameButPhase after other

def Funds.IgnorePhase (funds : Funds C) : Prop :=
  ∀ left right : C, SameButPhase left right → funds left = funds right

theorem replay_agrees {verifier : Verifier C T} (ignores : verifier.IgnoresPhase)
    (same : SameButPhase left right) {txs : List T}
    (ran : replay (some verifier) left txs = .ok after) :
    ∃ other, replay (some verifier) right txs = .ok other ∧ SameButPhase after other := by
  have respects : Respects (some verifier) SameButPhase := ignores
  exact replay_respects respects same ran

end Phases

end BlockBuilder
