import Mathlib.Algebra.Order.Field.Rat
import Mathlib.Data.Nat.Cast.Field
import Mathlib.Data.Nat.Cast.Order.Field
import BlockBuilder.Share

namespace BlockBuilder.Share

def value (share : Share) : ℚ := share.numerator.toNat / share.denominator.toNat

variable {left right sum total : Share} {shares : List Share}

theorem part?_eq_some_iff {value : Nat} {part : UInt64} : part? value = some part ↔ part.toNat = value := by
  unfold part?
  split
  · rename_i fits
    rw [Option.some.injEq, ← UInt64.toNat_inj, UInt64.toNat_ofNat_of_lt' fits]
    exact eq_comm
  · rename_i large
    have bound := part.toNat_lt_size
    constructor
    · intro same
      cases same
    · intro same
      omega

theorem denominator_pos (defined : left.denominator ≠ 0) : 0 < left.denominator.toNat := by
  apply Nat.pos_of_ne_zero
  intro zero
  exact defined (UInt64.toNat_inj.mp zero)

def commonNumerator (left right : Share) : Nat :=
  left.numerator.toNat * right.denominator.toNat + right.numerator.toNat * left.denominator.toNat

def commonDenominator (left right : Share) : Nat := left.denominator.toNat * right.denominator.toNat

theorem commonDenominator_pos (definedLeft : left.denominator ≠ 0) (definedRight : right.denominator ≠ 0) :
    0 < commonDenominator left right :=
  Nat.mul_pos (denominator_pos definedLeft) (denominator_pos definedRight)

theorem value_add_value (definedLeft : left.denominator ≠ 0) (definedRight : right.denominator ≠ 0) :
    left.value + right.value = (commonNumerator left right : ℚ) / commonDenominator left right := by
  have leftNe : (left.denominator.toNat : ℚ) ≠ 0 := Nat.cast_ne_zero.mpr (denominator_pos definedLeft).ne'
  have rightNe : (right.denominator.toNat : ℚ) ≠ 0 :=
    Nat.cast_ne_zero.mpr (denominator_pos definedRight).ne'
  rw [value, value, div_add_div _ _ leftNe rightNe, commonNumerator, commonDenominator,
    mul_comm (left.denominator.toNat : ℚ) right.numerator.toNat]
  push_cast
  rfl

theorem add?_eq_some_iff (definedLeft : left.denominator ≠ 0) (definedRight : right.denominator ≠ 0) :
    add? left right = some sum ↔ commonNumerator left right < UInt64.size * UInt64.size ∧
      sum.numerator.toNat = commonNumerator left right /
        (commonNumerator left right).gcd (commonDenominator left right) ∧
      sum.denominator.toNat = commonDenominator left right /
        (commonNumerator left right).gcd (commonDenominator left right) := by
  have divisorPos : 0 < (commonNumerator left right).gcd (commonDenominator left right) :=
    Nat.gcd_pos_of_pos_right _ (commonDenominator_pos definedLeft definedRight)
  rw [add?, if_neg (by simp [definedLeft, definedRight])]
  show (if commonNumerator left right < UInt64.size * UInt64.size then do
    let numerator ← part? (commonNumerator left right /
      max ((commonNumerator left right).gcd (commonDenominator left right)) 1)
    let denominator ← part? (commonDenominator left right /
      max ((commonNumerator left right).gcd (commonDenominator left right)) 1)
    return ⟨numerator, denominator⟩ else none) = some sum ↔ _
  rw [max_eq_left (Nat.succ_le_of_lt divisorPos)]
  split
  · rename_i small
    simp only [Option.bind_eq_bind, Option.bind_eq_some_iff, part?_eq_some_iff, small, true_and]
    constructor
    · rintro ⟨numerator, above, denominator, below, same⟩
      cases same
      exact ⟨above, below⟩
    · rintro ⟨above, below⟩
      exact ⟨_, above, _, below, rfl⟩
  · rename_i large
    simp [large]

theorem defined_of_add? (added : add? left right = some sum) :
    left.denominator ≠ 0 ∧ right.denominator ≠ 0 := by
  unfold add? at added
  split at added
  · cases added
  · rename_i defined
    exact not_or.mp defined

theorem value_add? (added : add? left right = some sum) : sum.value = left.value + right.value := by
  obtain ⟨definedLeft, definedRight⟩ := defined_of_add? added
  obtain ⟨-, above, below⟩ := (add?_eq_some_iff definedLeft definedRight).mp added
  rw [value_add_value definedLeft definedRight, value, above, below,
    Nat.cast_div_div_div_cancel_right (Nat.gcd_dvd_right ..) (Nat.gcd_dvd_left ..)]

theorem value_le_one (proper : sum.numerator ≤ sum.denominator) : sum.value ≤ 1 := by
  apply div_le_one_of_le₀
  · exact Nat.cast_le.mpr (UInt64.le_iff_toNat_le.mp proper)
  · exact Nat.cast_nonneg _

theorem sum_value_le_one_of_fitsAfter (start : total.value ≤ 1) (fits : fitsAfter total shares = true) :
    total.value + (shares.map value).sum ≤ 1 := by
  induction shares generalizing total with
  | nil => simpa using start
  | cons share rest ih =>
    rw [fitsAfter] at fits
    split at fits
    · rename_i sum added
      rw [Bool.and_eq_true, decide_eq_true_eq] at fits
      rw [List.map_cons, List.sum_cons, ← add_assoc, ← value_add? added]
      exact ih (value_le_one fits.1) fits.2
    · cases fits

theorem sum_value_le_one (fits : fitsBlock shares = true) : (shares.map value).sum ≤ 1 := by
  have empty : zero.value = 0 := by simp [zero, value]
  have within := sum_value_le_one_of_fitsAfter (empty ▸ zero_le_one) fits
  rwa [empty, zero_add] at within

theorem portion_le (share : Share) (count : Nat) : (share.portion count : ℚ) ≤ count * share.value := by
  unfold portion value
  split
  · rename_i undefined
    simp [undefined]
  · calc
      ((min (count * share.numerator.toNat / share.denominator.toNat) maxCount : ℕ) : ℚ)
        ≤ (count * share.numerator.toNat / share.denominator.toNat : ℕ) :=
          Nat.cast_le.mpr (Nat.min_le_left ..)
      _ ≤ (count * share.numerator.toNat : ℕ) / (share.denominator.toNat : ℚ) := Nat.cast_div_le
      _ = count * (share.numerator.toNat / share.denominator.toNat) := by
          rw [Nat.cast_mul, mul_div_assoc]

theorem sum_portion_le (fits : fitsBlock shares = true) (count : Nat) :
    (shares.map fun share => share.portion count).sum ≤ count := by
  have portions : (((shares.map fun share => share.portion count).sum : ℕ) : ℚ) ≤
      count * (shares.map value).sum := by
    clear fits
    induction shares with
    | nil => simp
    | cons share rest ih =>
      have first := share.portion_le count
      simp only [List.map_cons, List.sum_cons, Nat.cast_add, mul_add]
      exact add_le_add first ih
  have whole : (count : ℚ) * (shares.map value).sum ≤ count :=
    mul_le_of_le_one_right (Nat.cast_nonneg _) (sum_value_le_one fits)
  exact Nat.cast_le.mp (portions.trans whole)

end BlockBuilder.Share
