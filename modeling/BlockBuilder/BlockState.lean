import BlockBuilder.Address
import BlockBuilder.Coin

namespace BlockBuilder

inductive Phase where
  | check
  | recheck
  | prepare
  | process
  | finalize
  deriving DecidableEq, Inhabited

def Phase.isSubmission : Phase → Bool
  | .check | .recheck => true
  | _ => false

class BlockState (C : Type) where
  height : C → UInt64
  phase : C → Phase
  priority : C → UInt64
  byteLimit : C → Nat
  inPhase : C → Phase → C

/-- Decides whether a transaction is valid in a state and what the state is afterwards; the flag
says that the transaction is only being simulated. A refusal gives its reason. -/
abbrev Verifier (C T : Type) := C → T → Bool → Except String C

abbrev Funds (C : Type) := C → Address → String → Except String Coin

end BlockBuilder
