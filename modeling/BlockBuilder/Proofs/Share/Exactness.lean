import Mathlib.Algebra.Order.BigOperators.Group.List
import Mathlib.Data.Rat.Lemmas
import Mathlib.Tactic.Linarith
import BlockBuilder.Proofs.Lane.Outcome
import BlockBuilder.Proofs.Share.Portions
import BlockBuilder.Registry

namespace BlockBuilder

namespace Share

variable {share left right sum total : Share} {shares : List Share}

theorem denominator_ne_zero_of_add? (added : add? left right = some sum) : sum.denominator ≠ 0 := by
  obtain ⟨definedLeft, definedRight⟩ := defined_of_add? added
  obtain ⟨-, -, below⟩ := (add?_eq_some_iff definedLeft definedRight).mp added
  have pos := commonDenominator_pos definedLeft definedRight
  have reduced : 0 < sum.denominator.toNat := by
    rw [below]
    exact Nat.div_pos (Nat.gcd_le_right _ pos) (Nat.gcd_pos_of_pos_right _ pos)
  intro zero
  simp [zero] at reduced

theorem natCast_div_eq_mkRat (numerator denominator : Nat) :
    (numerator : ℚ) / denominator = mkRat numerator denominator := by
  rw [Rat.mkRat_eq_div, Int.cast_natCast]

theorem den_natCast_div {numerator denominator : Nat} (defined : 0 < denominator) :
    ((numerator : ℚ) / denominator).den = denominator / numerator.gcd denominator := by
  rw [natCast_div_eq_mkRat, Rat.den_mkRat, if_neg defined.ne', Int.natAbs_natCast, Nat.gcd_comm]

theorem den_value_dvd (defined : share.denominator ≠ 0) :
    share.value.den ∣ share.denominator.toNat := by
  rw [value, den_natCast_div (denominator_pos defined)]
  exact Nat.div_dvd_of_dvd (Nat.gcd_dvd_right _ _)

theorem den_value_lt (share : Share) : share.value.den < UInt64.size := by
  by_cases defined : share.denominator = 0
  · simp [value, defined, UInt64.size]
  · have small := Nat.le_of_dvd (denominator_pos defined) (den_value_dvd defined)
    exact small.trans_lt share.denominator.toNat_lt_size

theorem exists_add?_iff (definedLeft : left.denominator ≠ 0) (definedRight : right.denominator ≠ 0)
    (small : left.value + right.value ≤ 1) :
    (∃ sum, add? left right = some sum ∧ sum.numerator ≤ sum.denominator) ↔
      (left.value + right.value).den < UInt64.size := by
  constructor
  · rintro ⟨sum, added, -⟩
    rw [← value_add? added]
    exact den_value_lt sum
  · intro narrow
    have pos := commonDenominator_pos definedLeft definedRight
    rw [value_add_value definedLeft definedRight] at small narrow
    rw [den_natCast_div pos] at narrow
    have above : commonNumerator left right ≤ commonDenominator left right := by
      rw [div_le_one (Nat.cast_pos.mpr pos)] at small
      exact Nat.cast_le.mp small
    have wide : commonDenominator left right < UInt64.size * UInt64.size :=
      Nat.mul_lt_mul'' left.denominator.toNat_lt_size right.denominator.toNat_lt_size
    have reduced := Nat.div_le_div_right (c := (commonNumerator left right).gcd
      (commonDenominator left right)) above
    refine ⟨⟨.ofNat _, .ofNat _⟩, (add?_eq_some_iff definedLeft definedRight).mpr
      ⟨above.trans_lt wide, UInt64.toNat_ofNat_of_lt' (reduced.trans_lt narrow),
        UInt64.toNat_ofNat_of_lt' narrow⟩, ?_⟩
    rw [UInt64.le_iff_toNat_le, UInt64.toNat_ofNat_of_lt' (reduced.trans_lt narrow),
      UInt64.toNat_ofNat_of_lt' narrow]
    exact reduced

/-- Every sum on the way has a denominator of 64 bits. -/
def Representable (shares : List Share) : Prop :=
  ∀ front, front <+: shares → (front.map value).sum.den < UInt64.size

theorem sum_value_nonneg (shares : List Share) : 0 ≤ (shares.map value).sum := by
  apply List.sum_nonneg
  intro number mem
  obtain ⟨share, -, rfl⟩ := List.mem_map.mp mem
  exact div_nonneg (Nat.cast_nonneg _) (Nat.cast_nonneg _)

theorem forall_prefix_cons_iff : (∀ front, front <+: share :: shares →
      (total.value + (front.map value).sum).den < UInt64.size) ↔
    ∀ front, front <+: shares → (total.value + share.value + (front.map value).sum).den < UInt64.size := by
  constructor
  · intro narrow front before
    have longer := narrow (share :: front) (List.prefix_cons_iff.mpr (.inr ⟨front, rfl, before⟩))
    rwa [List.map_cons, List.sum_cons, ← add_assoc] at longer
  · intro narrow front before
    rcases List.prefix_cons_iff.mp before with rfl | ⟨others, rfl, behind⟩
    · simpa using total.den_value_lt
    · rw [List.map_cons, List.sum_cons, ← add_assoc]
      exact narrow others behind

theorem fitsAfter_iff (defined : total.denominator ≠ 0) (start : total.value ≤ 1) :
    fitsAfter total shares = true ↔ (∀ share ∈ shares, share.denominator ≠ 0) ∧
      total.value + (shares.map value).sum ≤ 1 ∧
      ∀ front, front <+: shares → (total.value + (front.map value).sum).den < UInt64.size := by
  induction shares generalizing total with
  | nil => simpa [fitsAfter, start] using total.den_value_lt
  | cons share rest ih =>
    rw [forall_prefix_cons_iff, List.forall_mem_cons, List.map_cons, List.sum_cons, ← add_assoc, fitsAfter]
    by_cases goesOn : ∃ sum, add? total share = some sum ∧ sum.numerator ≤ sum.denominator
    · obtain ⟨sum, added, proper⟩ := goesOn
      have next := ih (denominator_ne_zero_of_add? added) (value_le_one proper)
      rw [value_add? added] at next
      simp [added, proper, next, (defined_of_add? added).2]
    · refine iff_of_false ?_ ?_
      · intro fits
        split at fits
        · rename_i sum added
          rw [Bool.and_eq_true, decide_eq_true_eq] at fits
          exact goesOn ⟨sum, added, fits.1⟩
        · cases fits
      · rintro ⟨⟨definedShare, -⟩, within, narrow⟩
        have others := sum_value_nonneg rest
        have small : total.value + share.value ≤ 1 := by linarith
        apply goesOn
        apply (exists_add?_iff defined definedShare small).mpr
        simpa using narrow [] List.nil_prefix

theorem fitsBlock_iff : fitsBlock shares = true ↔ (∀ share ∈ shares, share.denominator ≠ 0) ∧
    (shares.map value).sum ≤ 1 ∧ Representable shares := by
  have empty : zero.value = 0 := by simp [zero, value]
  have defined : zero.denominator ≠ 0 := by decide
  rw [fitsBlock, fitsAfter_iff defined (empty ▸ zero_le_one), empty]
  simp only [zero_add, Representable]

theorem representable_of_dvd {common : Nat} (small : common < UInt64.size) (positive : 0 < common)
    (divides : ∀ share ∈ shares, share.denominator.toNat ∣ common) : Representable shares := by
  intro front before
  have parts : ∀ share ∈ front, share.value.den ∣ common := by
    intro share mem
    have divides := divides share (before.subset mem)
    refine (den_value_dvd ?_).trans divides
    intro zero
    rw [zero] at divides
    exact positive.ne' (Nat.eq_zero_of_zero_dvd divides)
  refine (Nat.le_of_dvd positive ?_).trans_lt small
  clear before
  induction front with
  | nil => simp
  | cons share rest ih =>
    obtain ⟨first, others⟩ := List.forall_mem_cons.mp parts
    rw [List.map_cons, List.sum_cons]
    exact (Rat.add_den_dvd_lcm _ _).trans (Nat.lcm_dvd first (ih others))

theorem defined_of_isProper (proper : share.isProper = true) : share.denominator ≠ 0 := by
  rw [isProper, Bool.and_eq_true, bne_iff_ne] at proper
  exact proper.1

theorem fitsBlock_eq_false_iff (defined : ∀ share ∈ shares, share.denominator ≠ 0) :
    fitsBlock shares = false ↔ 1 < (shares.map value).sum ∨ ¬Representable shares := by
  rw [← Bool.not_eq_true, fitsBlock_iff, and_iff_right defined, not_and_or, not_le]

theorem representable_pair_iff :
    Representable [left, right] ↔ (left.value + right.value).den < UInt64.size := by
  constructor
  · intro narrow
    simpa using narrow _ List.prefix_rfl
  · intro narrow front before
    rcases List.prefix_cons_iff.mp before with rfl | ⟨rest, rfl, behind⟩
    · simp [UInt64.size]
    · rcases List.prefix_cons_iff.mp behind with rfl | ⟨last, rfl, done⟩
      · simpa using left.den_value_lt
      · rw [List.prefix_nil.mp done]
        simpa using narrow

end Share

variable {L C T : Type} [BlockLane L C T]

theorem Terms.check_ne_oversubscribed (terms : Terms) : terms.check ≠ .error .oversubscribed := by
  intro refused
  have denom : ∀ field coin, terms.checkDenom field coin ≠ .error .oversubscribed := by
    intro field coin
    unfold checkDenom
    split <;> simp
  rcases bind_eq_error_iff.mp refused with early | ⟨_, -, late⟩
  · exact denom _ _ early
  · exact denom _ _ late

theorem Config.checkShare_eq_ok_iff {field : String} {limits : LaneLimits} {done : Unit} :
    checkShare field limits = .ok done ↔ limits.share.isProper = true := by
  unfold checkShare
  split <;> simp [*]

theorem Config.checkShare_ne_oversubscribed (field : String) (limits : LaneLimits) :
    checkShare field limits ≠ .error .oversubscribed := by
  unfold checkShare
  split <;> simp

theorem Config.check_eq_oversubscribed_iff {config : Config} :
    config.check = .error .oversubscribed ↔
      config.auctionLane.share.isProper = true ∧ config.defaultLane.share.isProper = true ∧
        Share.fitsBlock [config.auctionLane.share, config.defaultLane.share] = false := by
  simp only [check, bind_eq_error_iff, throwUnless_eq_error_iff, checkShare_eq_ok_iff,
    checkShare_ne_oversubscribed, config.terms.check_ne_oversubscribed, false_or, exists_const, and_true,
    and_false, or_false, Bool.not_eq_true]

theorem Registry.checkLanes_ne_oversubscribed (names : List String) (lanes : List L) :
    checkLanes names lanes ≠ .error (.setup .oversubscribed) := by
  induction lanes generalizing names with
  | nil => simp [checkLanes]
  | cons lane rest ih =>
    rw [checkLanes]
    split
    · simp
    · split
      · simp
      · exact ih _

theorem Registry.isProper_of_checkLanes {names : List String} {lanes : List L}
    (checked : checkLanes names lanes = .ok ()) :
    ∀ lane ∈ lanes, (BlockLane.share lane).isProper = true := by
  induction lanes generalizing names with
  | nil => simp
  | cons lane rest ih =>
    rw [checkLanes] at checked
    split at checked
    · cases checked
    · split at checked
      · cases checked
      · rename_i proper
        simp only [Bool.not_eq_true', Bool.not_eq_false] at proper
        exact List.forall_mem_cons.mpr ⟨proper, ih checked⟩

theorem Registry.ofLanes_eq_oversubscribed_iff {lanes : List L} :
    ofLanes lanes = .error (.setup .oversubscribed) ↔
      lanes ≠ [] ∧ checkLanes [] lanes = .ok () ∧
        Share.fitsBlock (lanes.map BlockLane.share) = false := by
  have others := checkLanes_ne_oversubscribed [] lanes
  unfold ofLanes
  simp only [throwIf_eq_error_iff, bind_eq_error_iff, throwUnless_eq_error_iff, others]
  simp [pure, Except.pure, Unique.exists_iff]

/-- Shares are reported as too much for one block exactly if they add up to more than one or a sum on
the way cannot be represented, which takes shares without a common denominator of 64 bits. -/
theorem oversubscription_exact :
    (∀ shares : List Share, Share.fitsBlock shares = true ↔
      (∀ share ∈ shares, share.denominator ≠ 0) ∧ (shares.map Share.value).sum ≤ 1 ∧
        Share.Representable shares) ∧
    (∀ (shares : List Share) (common : Nat), common < UInt64.size → 0 < common →
      (∀ share ∈ shares, share.denominator.toNat ∣ common) → Share.Representable shares) ∧
    (∀ config : Config, config.check = .error .oversubscribed ↔
      config.auctionLane.share.isProper = true ∧ config.defaultLane.share.isProper = true ∧
        (1 < config.auctionLane.share.value + config.defaultLane.share.value ∨
          UInt64.size ≤ (config.auctionLane.share.value + config.defaultLane.share.value).den)) ∧
    ∀ lanes : List L, Registry.ofLanes lanes = .error (.setup .oversubscribed) ↔
      lanes ≠ [] ∧ Registry.checkLanes [] lanes = .ok () ∧
        (1 < ((lanes.map BlockLane.share).map Share.value).sum ∨
          ¬Share.Representable (lanes.map BlockLane.share)) := by
  refine ⟨fun shares => Share.fitsBlock_iff, fun shares common small positive divides =>
    Share.representable_of_dvd small positive divides, fun config => ?_, fun lanes => ?_⟩
  · rw [Config.check_eq_oversubscribed_iff]
    refine and_congr_right fun auction => and_congr_right fun general => ?_
    have defined := Share.defined_of_isProper auction
    rw [Share.fitsBlock_eq_false_iff, Share.representable_pair_iff, not_lt]
    · simp
    · simpa using ⟨defined, Share.defined_of_isProper general⟩
  · rw [Registry.ofLanes_eq_oversubscribed_iff]
    refine and_congr_right fun _ => and_congr_right fun checked => ?_
    apply Share.fitsBlock_eq_false_iff
    simp only [List.forall_mem_map]
    intro lane mem
    exact Share.defined_of_isProper (Registry.isProper_of_checkLanes checked lane mem)

/-- Three shares that add up to less than one are refused, and accepted in another order. -/
theorem exists_refused_within_block :
    let shares : List Share := [⟨1, 4611686018427387905⟩, ⟨1, 9223372036854775808⟩,
      ⟨4611686018427387903, 9223372036854775808⟩]
    let other : List Share := [⟨1, 9223372036854775808⟩, ⟨4611686018427387903, 9223372036854775808⟩,
      ⟨1, 4611686018427387905⟩]
    let config : Config := { auctionLane := { share := ⟨1, 18446744073709551615⟩ },
                             defaultLane := { share := ⟨1, 18446744073709551614⟩ } }
    (∀ share ∈ shares, share.denominator ≠ 0) ∧ (shares.map Share.value).sum ≤ 1 ∧
      Share.fitsBlock shares = false ∧ shares.Perm other ∧ Share.fitsBlock other = true ∧
      config.auctionLane.share.value + config.defaultLane.share.value ≤ 1 ∧
      config.check = .error .oversubscribed := by
  intro shares other config
  exact ⟨by decide, by decide +kernel, by decide, by decide, by decide,
    by decide +kernel, by decide⟩

end BlockBuilder
