import BlockBuilder.BlockState
import BlockBuilder.Ledger.Transaction

namespace BlockBuilder.Ledger

structure Holding where
  owner : Address
  denom : String
  deriving DecidableEq, Inhabited

namespace Holding

instance : Ord Holding := ⟨compareLex (compareOn owner) (compareOn denom)⟩

instance : Std.TransOrd Holding :=
  inferInstanceAs (Std.TransCmp (compareLex (compareOn owner) (compareOn denom)))

instance : Std.LawfulEqOrd Holding where
  compare_self := Std.ReflOrd.compare_self
  eq_of_compare := by
    intro left right same
    have parts : compareLex (compareOn owner) (compareOn denom) left right = .eq := same
    simp only [compareLex_eq_eq, compareOn] at parts
    obtain ⟨owner, denom⟩ := parts
    cases left
    cases right
    simp_all

end Holding

structure State where
  height : UInt64 := 0
  phase : Phase := .check
  /-- The fee of the transaction executed last. -/
  priority : UInt64 := 0
  byteLimit : Nat := 0
  balances : Std.TreeMap Holding UInt64 := ∅
  sequences : Std.TreeMap Address UInt64 := ∅

namespace State

def empty (height : UInt64) (phase : Phase) (byteLimit : Nat) : State :=
  { height, phase, byteLimit }

def setBalance (state : State) (owner : Address) (coin : Coin) : State :=
  { state with balances := state.balances.insert ⟨owner, coin.denom⟩ coin.amount }

def balance (state : State) (owner : Address) (denom : String) : UInt64 :=
  state.balances.getD ⟨owner, denom⟩ 0

def nextSequence (state : State) (owner : Address) : UInt64 := state.sequences.getD owner 0

instance : BlockState State where
  height := State.height
  phase := State.phase
  priority := State.priority
  byteLimit := State.byteLimit
  inPhase state phase := { state with phase }

def funds : Funds State := fun state owner denom => .ok ⟨denom, state.balance owner denom⟩

end State

inductive Refusal where
  | noSigners
  | denied (signer : Address)
  | timedOut (height : UInt64)
  | sequenceMismatch (expected found : UInt64)
  | unpaid (balance : UInt64) (fee : Coin)
  deriving DecidableEq, Inhabited

def Refusal.message : Refusal → String
  | .noSigners => "transaction has no signers"
  | .denied signer => s!"signer {signer} is denied"
  | .timedOut height => s!"transaction timed out at height {height}"
  | .sequenceMismatch expected found =>
    s!"account sequence mismatch: expected {expected}, got {found}"
  | .unpaid balance fee => s!"insufficient fee balance {balance} for {fee}"

structure Rules where
  denied : List Address := []
  /-- Whether a transaction must carry exactly the sequence that is expected. -/
  strict : Bool := false
  deriving DecidableEq, Inhabited

namespace Rules

def charge (state : State) (sender : Address) (fee : Coin) : Except Refusal State :=
  if fee.isZero then .ok state
  else
    let balance := state.balance sender fee.denom
    if balance < fee.amount then .error (.unpaid balance fee)
    else .ok (state.setBalance sender ⟨fee.denom, balance - fee.amount⟩)

def check (rules : Rules) (state : State) (tx : Tx) : Except Refusal State :=
  match tx.signers.head? with
  | none => .error .noSigners
  | some sender => do
    if let some signer := tx.signers.find? rules.denied.contains then throw (.denied signer)
    unless tx.timeout = 0 ∨ state.height ≤ tx.timeout do throw (.timedOut tx.timeout)
    let expected := state.nextSequence sender
    if rules.strict ∧ tx.sequence ≠ expected then
      throw (.sequenceMismatch expected tx.sequence)
    let state ← charge state sender tx.fee
    return { state with
      sequences := state.sequences.insert sender (max tx.sequence expected + 1)
      priority := tx.fee.amount }

def verifier (rules : Rules) : Verifier State Tx := fun state tx _ =>
  (rules.check state tx).mapError Refusal.message

end Rules

end BlockBuilder.Ledger
