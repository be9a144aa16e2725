import BlockBuilder.Count

namespace BlockBuilder

/-- A fraction; a zero denominator can be written but denotes no number. -/
structure Share where
  numerator : UInt64
  denominator : UInt64
  deriving DecidableEq, Inhabited

namespace Share

def zero : Share := ⟨0, 1⟩

def one : Share := ⟨1, 1⟩

instance : ToString Share := ⟨fun share => s!"{share.numerator}/{share.denominator}"⟩

def isZero (share : Share) : Bool := share.numerator == 0

def isProper (share : Share) : Bool :=
  share.denominator != 0 && share.numerator ≤ share.denominator

/-- The part of a count that the share covers, rounded down; nothing for a zero denominator. -/
def portion (share : Share) (count : Nat) : Nat :=
  if share.denominator = 0 then 0
  else min (count * share.numerator.toNat / share.denominator.toNat) maxCount

def part? (value : Nat) : Option UInt64 :=
  if value < UInt64.size then some (UInt64.ofNat value) else none

/-- The sum in lowest terms. It is refused for a zero denominator, for a common numerator that
leaves 128 bits and for a reduced part that leaves 64. -/
def add? (left right : Share) : Option Share :=
  if left.denominator = 0 ∨ right.denominator = 0 then none
  else
    let denominator := left.denominator.toNat * right.denominator.toNat
    let numerator := left.numerator.toNat * right.denominator.toNat +
      right.numerator.toNat * left.denominator.toNat
    if numerator < UInt64.size * UInt64.size then do
      let divisor := max (Nat.gcd numerator denominator) 1
      let numerator ← part? (numerator / divisor)
      let denominator ← part? (denominator / divisor)
      return ⟨numerator, denominator⟩
    else none

def fitsAfter : Share → List Share → Bool
  | _, [] => true
  | total, share :: rest =>
    match add? total share with
    | some sum => sum.numerator ≤ sum.denominator && fitsAfter sum rest
    | none => false

def fitsBlock (shares : List Share) : Bool := fitsAfter zero shares

end Share

end BlockBuilder
