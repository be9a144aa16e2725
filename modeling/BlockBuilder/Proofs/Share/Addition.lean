import BlockBuilder.Proofs.Share.Exactness

/-!
# Adding shares

A sum of shares is the sum of their numbers in lowest terms, and it is refused only where a denominator is
zero, the common numerator leaves 128 bits or a part of the sum leaves 64 (`add?_exact`). The order of the
shares therefore makes no difference, nor does the way they are bracketed once both ways give a sum.

Addition is stated with numbers of any size. Words of 128 bits are enough for it: `addWide` forms the sum
from them, with a fault wherever a product overflows or a divisor is zero, and never meets one
(`addWide_eq`).
-/
namespace BlockBuilder.Share

variable {left right third sum other : Share}

abbrev Wide := BitVec 128

inductive Fault where
  | overflow
  | zeroDivisor

namespace Wide

def ofWord (word : UInt64) : Wide := word.toBitVec.setWidth 128

def add? (left right : Wide) : Option Wide :=
  if left.uaddOverflow right then none else some (left + right)

def mul (left right : Wide) : Except Fault Wide :=
  if left.umulOverflow right then .error .overflow else .ok (left * right)

def div (left right : Wide) : Except Fault Wide :=
  if right = 0 then .error .zeroDivisor else .ok (left / right)

theorem toNat_pos {word : Wide} (nonzero : word ≠ 0) : 0 < word.toNat :=
  Nat.pos_of_ne_zero (BitVec.toNat_ne.mp nonzero)

/-- Euclid's algorithm: divides by the remainder until there is none. At the end it makes one of zero. -/
def divisor (left right : Wide) : Wide :=
  if right = 0 then if left = 0 then 1 else left
  else divisor right (left % right)
termination_by right.toNat
decreasing_by
  rename_i nonzero
  rw [BitVec.toNat_umod]
  exact Nat.mod_lt _ (toNat_pos nonzero)

@[simp] theorem toNat_ofWord (word : UInt64) : (ofWord word).toNat = word.toNat := by
  have bound := word.toNat_lt
  rw [ofWord, BitVec.toNat_setWidth, UInt64.toNat_toBitVec]
  exact Nat.mod_eq_of_lt (by omega)

theorem add?_cases (left right : Wide) :
    (left.toNat + right.toNat < UInt64.size * UInt64.size ∧
        ∃ sum, add? left right = some sum ∧ sum.toNat = left.toNat + right.toNat) ∨
      ¬left.toNat + right.toNat < UInt64.size * UInt64.size ∧ add? left right = none := by
  have overflow_iff : left.uaddOverflow right = true ↔
      ¬left.toNat + right.toNat < UInt64.size * UInt64.size := by
    simp only [BitVec.uaddOverflow, decide_eq_true_eq, UInt64.size]
    omega
  unfold add?
  split
  · rename_i overflow
    exact .inr ⟨overflow_iff.mp overflow, rfl⟩
  · rename_i fits
    exact .inl ⟨not_not.mp (mt overflow_iff.mpr fits), _, rfl,
      BitVec.toNat_add_of_not_uaddOverflow fits⟩

theorem exists_mul_ofWord (left right : UInt64) : ∃ product,
    mul (ofWord left) (ofWord right) = .ok product ∧ product.toNat = left.toNat * right.toNat := by
  have fits : ¬(ofWord left).umulOverflow (ofWord right) = true := by
    have bound : left.toNat * right.toNat < UInt64.size * UInt64.size :=
      Nat.mul_lt_mul'' left.toNat_lt_size right.toNat_lt_size
    simp only [UInt64.size] at bound
    simp only [BitVec.umulOverflow, toNat_ofWord, decide_eq_true_eq]
    omega
  refine ⟨ofWord left * ofWord right, if_neg fits, ?_⟩
  rw [BitVec.toNat_mul_of_not_umulOverflow fits, toNat_ofWord, toNat_ofWord]

theorem exists_div {right : Wide} (positive : 0 < right.toNat) (left : Wide) : ∃ quotient,
    div left right = .ok quotient ∧ quotient.toNat = left.toNat / right.toNat :=
  ⟨left / right, if_neg (BitVec.toNat_ne.mpr positive.ne'), BitVec.toNat_udiv⟩

theorem toNat_divisor (left right : Wide) :
    (divisor left right).toNat = max (left.toNat.gcd right.toNat) 1 := by
  fun_induction divisor left right with
  | case1 => rfl
  | case2 left nonzero =>
    have whole : left.toNat.gcd (0 : Wide).toNat = left.toNat := Nat.gcd_zero_right _
    rw [whole, max_eq_left (toNat_pos nonzero)]
  | case3 left right _ ih =>
    rw [ih, BitVec.toNat_umod, Nat.gcd_comm right.toNat, ← Nat.gcd_rec, Nat.gcd_comm]

theorem toNat_divisor_pos (left right : Wide) : 0 < (divisor left right).toNat := by
  rw [toNat_divisor]
  exact Nat.lt_of_lt_of_le Nat.one_pos (le_max_right ..)

end Wide

def addWide (left right : Share) : Except Fault (Option Share) :=
  if left.denominator = 0 ∨ right.denominator = 0 then .ok none
  else do
    let denominator ← Wide.mul (.ofWord left.denominator) (.ofWord right.denominator)
    let first ← Wide.mul (.ofWord left.numerator) (.ofWord right.denominator)
    let second ← Wide.mul (.ofWord right.numerator) (.ofWord left.denominator)
    match Wide.add? first second with
    | none => .ok none
    | some numerator =>
      let divisor := Wide.divisor numerator denominator
      let above ← Wide.div numerator divisor
      let below ← Wide.div denominator divisor
      .ok do
        let numerator ← part? above.toNat
        let denominator ← part? below.toNat
        return ⟨numerator, denominator⟩

theorem addWide_eq (left right : Share) : addWide left right = .ok (add? left right) := by
  unfold addWide add?
  split
  · rfl
  · obtain ⟨denominator, common, below⟩ := Wide.exists_mul_ofWord left.denominator right.denominator
    obtain ⟨first, widened, firstEq⟩ := Wide.exists_mul_ofWord left.numerator right.denominator
    obtain ⟨second, widened', secondEq⟩ := Wide.exists_mul_ofWord right.numerator left.denominator
    refine bind_eq_ok_iff.mpr ⟨denominator, common, bind_eq_ok_iff.mpr ⟨first, widened,
      bind_eq_ok_iff.mpr ⟨second, widened', ?_⟩⟩⟩
    rcases Wide.add?_cases first second with ⟨fits, numerator, added, above⟩ | ⟨large, refused⟩
    · have positive := Wide.toNat_divisor_pos numerator denominator
      obtain ⟨reduced, divided, reducedEq⟩ := Wide.exists_div positive numerator
      obtain ⟨reduced', divided', reducedEq'⟩ := Wide.exists_div positive denominator
      rw [added]
      refine bind_eq_ok_iff.mpr ⟨reduced, divided, bind_eq_ok_iff.mpr ⟨reduced', divided', ?_⟩⟩
      rw [firstEq, secondEq] at fits above
      rw [Wide.toNat_divisor, above, below] at reducedEq reducedEq'
      rw [reducedEq, reducedEq', if_pos fits]
    · rw [firstEq, secondEq] at large
      rw [refused, if_neg large]

structure Reduced (share : Share) : Prop where
  defined : share.denominator ≠ 0
  coprime : share.numerator.toNat.Coprime share.denominator.toNat

theorem num_natCast_div {numerator denominator : Nat} (defined : 0 < denominator) :
    ((numerator : ℚ) / denominator).num = (numerator / numerator.gcd denominator : Nat) := by
  rw [natCast_div_eq_mkRat, Rat.num_mkRat, if_neg defined.ne', Int.natAbs_natCast, Nat.gcd_comm,
    Int.natCast_ediv]

theorem Reduced.num_value (reduced : sum.Reduced) : sum.value.num = sum.numerator.toNat := by
  rw [value, num_natCast_div (denominator_pos reduced.defined), reduced.coprime.gcd_eq_one, Nat.div_one]

theorem Reduced.den_value (reduced : sum.Reduced) : sum.value.den = sum.denominator.toNat := by
  rw [value, den_natCast_div (denominator_pos reduced.defined), reduced.coprime.gcd_eq_one, Nat.div_one]

theorem Reduced.eq_of_value_eq (reduced : sum.Reduced) (reduced' : other.Reduced)
    (same : sum.value = other.value) : sum = other := by
  have above : (sum.numerator.toNat : ℤ) = other.numerator.toNat := by
    rw [← reduced.num_value, ← reduced'.num_value, same]
  have below : sum.denominator.toNat = other.denominator.toNat := by
    rw [← reduced.den_value, ← reduced'.den_value, same]
  cases sum
  cases other
  exact congrArg₂ Share.mk (UInt64.toNat_inj.mp (Nat.cast_inj.mp above)) (UInt64.toNat_inj.mp below)

theorem reduced_of_add? (added : add? left right = some sum) : sum.Reduced := by
  obtain ⟨definedLeft, definedRight⟩ := defined_of_add? added
  obtain ⟨-, above, below⟩ := (add?_eq_some_iff definedLeft definedRight).mp added
  refine ⟨denominator_ne_zero_of_add? added, ?_⟩
  rw [above, below]
  exact Nat.coprime_div_gcd_div_gcd
    (Nat.gcd_pos_of_pos_right _ (commonDenominator_pos definedLeft definedRight))

theorem add?_eq_none_iff : add? left right = none ↔
    left.denominator = 0 ∨ right.denominator = 0 ∨
      UInt64.size * UInt64.size ≤ commonNumerator left right ∨
      (UInt64.size : ℤ) ≤ (left.value + right.value).num ∨
      UInt64.size ≤ (left.value + right.value).den := by
  by_cases definedLeft : left.denominator = 0
  · simp [add?, definedLeft]
  by_cases definedRight : right.denominator = 0
  · simp [add?, definedRight]
  have positive := commonDenominator_pos definedLeft definedRight
  simp only [definedLeft, definedRight, false_or, value_add_value definedLeft definedRight,
    num_natCast_div positive, den_natCast_div positive, Nat.cast_le]
  constructor
  · intro refused
    by_contra! fits
    obtain ⟨small, above, below⟩ := fits
    have added : add? left right = some ⟨.ofNat _, .ofNat _⟩ :=
      (add?_eq_some_iff definedLeft definedRight).mpr
        ⟨small, UInt64.toNat_ofNat_of_lt' above, UInt64.toNat_ofNat_of_lt' below⟩
    rw [refused] at added
    cases added
  · intro large
    refine Option.eq_none_iff_forall_ne_some.mpr fun sum added => ?_
    obtain ⟨small, above, below⟩ := (add?_eq_some_iff definedLeft definedRight).mp added
    have above' := above ▸ sum.numerator.toNat_lt_size
    have below' := below ▸ sum.denominator.toNat_lt_size
    omega

theorem add?_comm (left right : Share) : add? left right = add? right left := by
  have numerator : commonNumerator left right = commonNumerator right left := Nat.add_comm ..
  have denominator : commonDenominator left right = commonDenominator right left := Nat.mul_comm ..
  by_cases definedLeft : left.denominator = 0
  · simp [add?, definedLeft]
  by_cases definedRight : right.denominator = 0
  · simp [add?, definedRight]
  ext sum
  rw [add?_eq_some_iff definedLeft definedRight, add?_eq_some_iff definedRight definedLeft, numerator,
    denominator]

theorem eq_of_add?_add? (forward : (add? left right).bind (add? · third) = some sum)
    (backward : (add? right third).bind (add? left) = some other) : sum = other := by
  obtain ⟨front, first, last⟩ := Option.bind_eq_some_iff.mp forward
  obtain ⟨back, first', last'⟩ := Option.bind_eq_some_iff.mp backward
  refine (reduced_of_add? last).eq_of_value_eq (reduced_of_add? last') ?_
  rw [value_add? last, value_add? first, value_add? last', value_add? first', add_assoc]

/-- Addition is exact: a sum is the number in lowest terms that the shares add up to, and is missing exactly
if a denominator is zero, the common numerator has more than 128 bits or a part of the sum more than 64.
Nothing else overflows or is divided by zero on the way, and Euclid's algorithm finds the greatest common
divisor. Addition is commutative, and associative as far as there are sums. -/
theorem add?_exact (left right : Share) :
    (∀ sum, add? left right = some sum → sum.Reduced ∧ sum.value = left.value + right.value) ∧
    (add? left right = none ↔ left.denominator = 0 ∨ right.denominator = 0 ∨
      UInt64.size * UInt64.size ≤ commonNumerator left right ∨
      (UInt64.size : ℤ) ≤ (left.value + right.value).num ∨
      UInt64.size ≤ (left.value + right.value).den) ∧
    addWide left right = .ok (add? left right) ∧
    (∀ first second : Wide,
      (Wide.divisor first second).toNat = max (first.toNat.gcd second.toNat) 1) ∧
    add? left right = add? right left ∧
    ∀ third sum other, (add? left right).bind (add? · third) = some sum →
      (add? right third).bind (add? left) = some other → sum = other := by
  exact ⟨fun sum added => ⟨reduced_of_add? added, value_add? added⟩, add?_eq_none_iff,
    addWide_eq left right, Wide.toNat_divisor, add?_comm left right, fun _ _ _ => eq_of_add?_add?⟩

example :
    let first : Share := ⟨1, 4611686018427387905⟩
    let second : Share := ⟨1, 9223372036854775808⟩
    let third : Share := ⟨4611686018427387903, 9223372036854775808⟩
    (add? first second).bind (add? · third) = none ∧
      (add? second third).bind (add? first) = some ⟨4611686018427387907, 9223372036854775810⟩ := by
  decide

end BlockBuilder.Share
