namespace BlockBuilder

structure Coin where
  denom : String
  amount : UInt64
  deriving DecidableEq, Inhabited

namespace Coin

instance : ToString Coin := ⟨fun coin => s!"{coin.amount}{coin.denom}"⟩

def isZero (coin : Coin) : Bool := coin.amount == 0

def addAmount? (left right : UInt64) : Option UInt64 :=
  if left.toNat + right.toNat < UInt64.size then some (left + right) else none

def add? (left right : Coin) : Option Coin :=
  if left.denom = right.denom then
    (addAmount? left.amount right.amount).map fun amount => ⟨left.denom, amount⟩
  else none

def compare? (left right : Coin) : Option Ordering :=
  if left.denom = right.denom then some (compare left.amount right.amount) else none

theorem addAmount?_eq_some_iff {left right sum : UInt64} :
    addAmount? left right = some sum ↔ left.toNat + right.toNat = sum.toNat := by
  unfold addAmount?
  have bound := sum.toNat_lt
  split
  · rename_i fits
    rw [Option.some.injEq, ← UInt64.toNat_inj, UInt64.toNat_add, Nat.mod_eq_of_lt fits]
  · rename_i overflow
    simp only [reduceCtorEq, false_iff]
    simp only [UInt64.size] at overflow
    omega

end Coin

end BlockBuilder
