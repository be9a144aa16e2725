import BlockBuilder.Proofs.Builder.Lanes
import BlockBuilder.Proofs.Draft.Accounting
import BlockBuilder.Proofs.Lane.Isolation

namespace BlockBuilder

variable {C T : Type}

/-- A result, with the additions that drafts were offered on the way to it. -/
structure Logged (T α : Type) where
  tried : List (Addition T)
  result : α

namespace Logged

instance : Monad (Logged T) where
  pure value := ⟨[], value⟩
  bind logged next := ⟨logged.tried ++ (next logged.result).tried, (next logged.result).result⟩

variable {α β : Type}

@[simp] theorem tried_pure (value : α) : (pure value : Logged T α).tried = [] := rfl

@[simp] theorem result_pure (value : α) : (pure value : Logged T α).result = value := rfl

@[simp] theorem tried_bind (logged : Logged T α) (next : α → Logged T β) :
    (logged >>= next).tried = logged.tried ++ (next logged.result).tried := rfl

@[simp] theorem result_bind (logged : Logged T α) (next : α → Logged T β) :
    (logged >>= next).result = (next logged.result).result := rfl

@[simp] theorem tried_map (change : α → β) (logged : Logged T α) :
    (change <$> logged).tried = logged.tried := List.append_nil _

@[simp] theorem result_map (change : α → β) (logged : Logged T α) :
    (change <$> logged).result = change logged.result := rfl

def add (draft : Draft) (addition : Addition T) : Logged T (Except LaneError Draft) :=
  ⟨[addition], draft.perform addition⟩

end Logged

variable [Transaction T] [BlockState C] {draft : Draft} {limit : Nat} {state : C}

namespace AuctionLane

def chooseLogged (lane : AuctionLane C T) (draft : Draft) (limit : Nat) (state : C) :
    List (SealedTx T) → Logged T (Choice C)
  | [] => pure ⟨[], draft, state⟩
  | bidTx :: rest =>
    if draft.contains bidTx.digest then lane.chooseLogged draft limit state rest
    else
      match (lane.verifyBid bidTx).outcome state with
      | (.error _, _) => do return (← lane.chooseLogged draft limit state rest).bury bidTx
      | (.ok (_, bundle), branch) =>
        if bundle.any fun sealedTx => draft.contains sealedTx.digest then
          lane.chooseLogged draft limit state rest
        else if limit < Draft.bytesOf (bidTx :: bundle) then lane.chooseLogged draft limit state rest
        else do
          match ← Logged.add draft ⟨name, lane.share, bidTx :: bundle⟩ with
          | .error _ => return (← lane.chooseLogged draft limit state rest).bury bidTx
          | .ok extended => return ⟨[], extended, branch⟩

def contributeLogged (lane : AuctionLane C T) (draft : Draft) (limit : Nat) (state : C) :
    Logged T (Attempt (AuctionLane C T) C) := do
  let choice ← lane.chooseLogged draft limit state lane.pool.select.1
  return ⟨.ok choice.draft, { lane with pool := lane.pool.settle.removeAll choice.dead }, choice.state⟩

theorem result_chooseLogged (lane : AuctionLane C T) (draft : Draft) (limit : Nat) (state : C)
    (bids : List (SealedTx T)) :
    (lane.chooseLogged draft limit state bids).result = lane.choose draft limit state bids := by
  induction bids with
  | nil => rfl
  | cons bidTx rest ih =>
    by_cases known : draft.contains bidTx.digest = true
    · simp [chooseLogged, choose, known, ih]
    rcases verified : (lane.verifyBid bidTx).outcome state with ⟨_ | ⟨bid, bundle⟩, branch⟩
    · simp [chooseLogged, choose, known, verified, ih]
    by_cases repeated : (bundle.any fun sealedTx => draft.contains sealedTx.digest) = true
    · simp only [chooseLogged, choose, known, verified, repeated, if_true, Bool.false_eq_true, if_false, ih]
    by_cases large : limit < Draft.bytesOf (bidTx :: bundle)
    · simp only [chooseLogged, choose, known, verified, repeated, large, if_true, Bool.false_eq_true,
        if_false, ih]
    simp only [chooseLogged, choose, known, verified, repeated, large, Bool.false_eq_true, if_false,
      Logged.result_bind, Logged.add, Draft.perform]
    cases draft.add name lane.share (bidTx :: bundle) with
    | error cause => simp [ih]
    | ok extended => rfl

theorem result_contributeLogged (lane : AuctionLane C T) (draft : Draft) (limit : Nat) (state : C) :
    (lane.contributeLogged draft limit state).result = lane.contribute draft limit state := by
  rw [contributeLogged, Logged.result_bind, Logged.result_pure, result_chooseLogged, contribute_eq]

theorem tried_contributeLogged (lane : AuctionLane C T) (draft : Draft) (limit : Nat) (state : C) :
    (lane.contributeLogged draft limit state).tried =
      (lane.chooseLogged draft limit state lane.pool.select.1).tried :=
  List.append_nil _

theorem chooseLogged_cons (lane : AuctionLane C T) (draft : Draft) (limit : Nat) (state : C)
    (bidTx : SealedTx T) (rest : List (SealedTx T)) :
    let logged := lane.chooseLogged draft limit state (bidTx :: rest)
    let later := lane.chooseLogged draft limit state rest
    (logged.tried = later.tried ∧ logged.result.draft = later.result.draft) ∨
      ∃ bundle, Draft.bytesOf (bidTx :: bundle) ≤ limit ∧
        let addition : Addition T := ⟨name, lane.share, bidTx :: bundle⟩
        ((∃ cause, draft.perform addition = .error cause ∧ logged.tried = addition :: later.tried ∧
            logged.result.draft = later.result.draft) ∨
          ∃ extended, draft.perform addition = .ok extended ∧ logged.tried = [addition] ∧
            logged.result.draft = extended) := by
  by_cases known : draft.contains bidTx.digest = true
  · exact .inl (by simp [chooseLogged, known])
  rcases verified : (lane.verifyBid bidTx).outcome state with ⟨_ | ⟨bid, bundle⟩, branch⟩
  · exact .inl (by simp [chooseLogged, known, verified, Choice.bury])
  by_cases repeated : (bundle.any fun sealedTx => draft.contains sealedTx.digest) = true
  · refine .inl ?_
    simp only [chooseLogged, known, verified, repeated, if_true, Bool.false_eq_true, if_false, and_self]
  by_cases large : limit < Draft.bytesOf (bidTx :: bundle)
  · refine .inl ?_
    simp only [chooseLogged, known, verified, repeated, large, if_true, Bool.false_eq_true, if_false,
      and_self]
  refine .inr ⟨bundle, Nat.le_of_not_lt large, ?_⟩
  simp only [chooseLogged, known, verified, repeated, large, Bool.false_eq_true, if_false,
    Logged.tried_bind, Logged.result_bind, Logged.add]
  cases added : draft.perform ⟨name, lane.share, bidTx :: bundle⟩ with
  | error cause => exact .inl ⟨cause, rfl, by simp, rfl⟩
  | ok extended => exact .inr ⟨extended, rfl, rfl, rfl⟩

end AuctionLane

namespace GeneralLane

def contributeLogged (lane : GeneralLane C T) (draft : Draft) (limit : Nat) (state : C) :
    Logged T (Attempt (GeneralLane C T) C) := do
  let picks := lane.pick draft limit lane.pool.select.1 0 state
  let result ← Logged.add draft ⟨lane.name, lane.settings.limits.share, picks.chosen⟩
  return ⟨result, { lane with pool := lane.pool.settle.removeAll picks.dead }, picks.state⟩

omit [Transaction T] [BlockState C] in
theorem result_contributeLogged (lane : GeneralLane C T) (draft : Draft) (limit : Nat) (state : C) :
    (lane.contributeLogged draft limit state).result = lane.contribute draft limit state := by
  rw [contribute_eq]
  rfl

end GeneralLane

namespace StandardLane

def contributeLogged (draft : Draft) (limit : Nat) (state : C) :
    StandardLane C T → Logged T (Attempt (StandardLane C T) C)
  | .auction lane => wrap .auction <$> lane.contributeLogged draft limit state
  | .general lane => wrap .general <$> lane.contributeLogged draft limit state

theorem result_contributeLogged (lane : StandardLane C T) (draft : Draft) (limit : Nat) (state : C) :
    (lane.contributeLogged draft limit state).result = lane.contribute draft limit state := by
  cases lane with
  | auction lane =>
    rw [contributeLogged, Logged.result_map, lane.result_contributeLogged]
    rfl
  | general lane =>
    rw [contributeLogged, Logged.result_map, lane.result_contributeLogged]
    rfl

end StandardLane

namespace Chain

def buildUpToLogged : Nat → List (StandardLane C T) → Draft → C →
    Logged T (Attempt (List (StandardLane C T)) C)
  | 0, lanes, draft, state => pure ⟨.ok draft, lanes, state⟩
  | _ + 1, [], draft, state => pure ⟨.ok draft, [], state⟩
  | count + 1, lane :: rest, draft, state => do
    let own ← lane.contributeLogged draft (draft.allowance lane.settings.limits.share) state
    match own.result with
    | .error _ => return (← buildUpToLogged count rest draft state).behind own.lanes
    | .ok extended =>
      let later ← buildUpToLogged count rest extended own.state
      match later.result, BlockLane.ratify own.lanes with
      | .ok _, .ok () => return later.behind own.lanes
      | _, _ => return (← buildUpToLogged count later.lanes draft state).behind own.lanes

def buildLogged (lanes : List (StandardLane C T)) (draft : Draft) (state : C) :
    Logged T (Attempt (List (StandardLane C T)) C) :=
  buildUpToLogged lanes.length lanes draft state

theorem result_buildUpToLogged (count : Nat) (lanes : List (StandardLane C T)) (draft : Draft)
    (state : C) : (buildUpToLogged count lanes draft state).result = buildUpTo count lanes draft state := by
  induction count generalizing lanes draft state with
  | zero => rfl
  | succ count ih =>
    cases lanes with
    | nil => rfl
    | cons lane rest =>
      have contributed : BlockLane.contribute lane draft (draft.allowance (BlockLane.share lane)) state =
          (lane.contributeLogged draft (draft.allowance lane.settings.limits.share) state).result :=
        (lane.result_contributeLogged ..).symm
      rw [buildUpToLogged, buildUpTo, contributed, Logged.result_bind]
      generalize (lane.contributeLogged _ _ _).result = own
      cases own.result with
      | error cause => simp only [Logged.result_bind, Logged.result_pure, ih]
      | ok extended =>
        simp only [Logged.result_bind, ih]
        cases (buildUpTo count rest extended own.state).result with
        | error cause => simp only [Logged.result_bind, Logged.result_pure, ih]
        | ok final =>
          cases BlockLane.ratify own.lanes with
          | error cause => simp only [Logged.result_bind, Logged.result_pure, ih]
          | ok done => rfl

theorem result_buildLogged (lanes : List (StandardLane C T)) (draft : Draft) (state : C) :
    (buildLogged lanes draft state).result = build lanes draft state :=
  result_buildUpToLogged ..

theorem tried_buildLogged_cons (lane : StandardLane C T) (rest : List (StandardLane C T))
    (draft : Draft) (state : C) :
    (buildLogged (lane :: rest) draft state).tried =
      (lane.contributeLogged draft (draft.allowance lane.settings.limits.share) state).tried ++
        let own := lane.contribute draft (draft.allowance lane.settings.limits.share) state
        match own.result with
        | .ok extended => (buildLogged rest extended own.state).tried
        | .error _ => (buildLogged rest draft state).tried := by
  have ratified (lane : StandardLane C T) : BlockLane.ratify lane = .ok () := rfl
  rw [buildLogged, List.length_cons, buildUpToLogged, Logged.tried_bind, lane.result_contributeLogged]
  congr 1
  generalize (lane.contribute draft (draft.allowance lane.settings.limits.share) state) = own
  cases given : own.result with
  | error cause =>
    simp only [given, Logged.tried_bind, Logged.tried_pure, List.append_nil]
    rfl
  | ok extended =>
    obtain ⟨txs, final, ok, -⟩ := built_buildUpTo rest.length rest extended own.state
    simp only [given, Logged.tried_bind, result_buildUpToLogged, ok, ratified, Logged.tried_pure,
      List.append_nil]
    rfl

end Chain

end BlockBuilder
