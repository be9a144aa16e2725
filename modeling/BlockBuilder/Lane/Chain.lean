import BlockBuilder.Lane.Basic

namespace BlockBuilder

variable {L C T : Type}

def Attempt.behind (attempt : Attempt (List L) C) (lane : L) : Attempt (List L) C :=
  { attempt with lanes := lane :: attempt.lanes }

namespace Chain

variable [BlockLane L C T]

open BlockLane

/-- Lets at most a number of lanes contribute to a draft in turn. -/
def buildUpTo : Nat → List L → Draft → C → Attempt (List L) C
  | 0, lanes, draft, state => ⟨.ok draft, lanes, state⟩
  | _ + 1, [], draft, state => ⟨.ok draft, [], state⟩
  | count + 1, lane :: rest, draft, state =>
    let own := contribute lane draft (draft.allowance (share lane)) state
    match own.result with
    | .error _ => (buildUpTo count rest draft state).behind own.lanes
    | .ok extended =>
      let later := buildUpTo count rest extended own.state
      match later.result, ratify own.lanes with
      | .ok _, .ok () => later.behind own.lanes
      -- a lane that fails late is left out, and the later ones start again with what they still hold
      | _, _ => (buildUpTo count later.lanes draft state).behind own.lanes

def build (lanes : List L) (draft : Draft) (state : C) : Attempt (List L) C :=
  buildUpTo lanes.length lanes draft state

def judge : List L → Draft → List (SealedTx T) → Run C Draft
  | [], draft, txs => if txs.isEmpty then pure draft else throw (.unclaimed txs.length)
  | lane :: rest, draft, txs => do
    let (draft, txs) ← claim lane draft txs
    judge rest draft txs

end Chain

end BlockBuilder
