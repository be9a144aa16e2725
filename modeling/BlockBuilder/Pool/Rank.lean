import BlockBuilder.Address

namespace BlockBuilder

def descending {α β : Type} [Ord β] (key : α → β) (left right : α) : Ordering :=
  compareOn key right left

instance {α β : Type} [Ord β] [Std.TransOrd β] (key : α → β) : Std.TransCmp (descending key) :=
  @Std.TransCmp.opposite _ (compareOn key) _

structure Rank (V : Type) where
  priority : V
  weight : Option V
  sender : Address
  sequence : UInt64
  deriving DecidableEq

namespace Rank

variable {V : Type} [Ord V]

def order (V : Type) [Ord V] : Rank V → Rank V → Ordering :=
  compareLex (descending priority) <| compareLex (descending weight) <|
    compareLex (compareOn sender) (compareOn sequence)

instance : Ord (Rank V) := ⟨order V⟩

instance instTransOrdRank [Std.TransOrd V] : Std.TransOrd (Rank V) :=
  inferInstanceAs (Std.TransCmp (compareLex _ _))

instance instLawfulEqOrdRank [Std.TransOrd V] [Std.LawfulEqOrd V] :
    Std.LawfulEqOrd (Rank V) where
  compare_self := Std.ReflOrd.compare_self
  eq_of_compare := by
    intro left right same
    have parts : order V left right = .eq := same
    simp only [order, compareLex_eq_eq, descending, compareOn] at parts
    obtain ⟨priority, weight, sender, sequence⟩ := parts
    cases left
    cases right
    simp_all

/-- Whether a transaction of this priority and weight comes after a rank, apart from sender and
sequence. -/
def isAfter (priority : V) (weight : Option V) (rank : Rank V) : Bool :=
  match compare priority rank.priority with
  | .lt => true
  | .eq => compare weight rank.weight == .lt
  | .gt => false

end Rank

end BlockBuilder
