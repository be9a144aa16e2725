namespace BlockBuilder

def maxCount : Nat := UInt64.size - 1

def addCapped (left right : Nat) : Nat := min (left + right) maxCount

theorem addCapped_le (left right : Nat) : addCapped left right ≤ maxCount :=
  Nat.min_le_right ..

theorem addCapped_eq_add {left right : Nat} (fits : left + right ≤ maxCount) :
    addCapped left right = left + right :=
  Nat.min_eq_left fits

end BlockBuilder
