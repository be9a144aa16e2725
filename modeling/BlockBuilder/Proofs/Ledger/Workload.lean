import Mathlib.Algebra.Order.Floor.Div
import Mathlib.Data.List.Nodup
import BlockBuilder.Ledger.Workload

namespace BlockBuilder.Ledger

variable {range value : UInt64}

theorem draw_lt {words : List UInt64} (positive : 0 < range) : (draw range words).1 < range := by
  fun_induction draw range words with
  | case1 => exact positive
  | case2 word rest product kept =>
    have small : product / UInt64.size < range.toNat :=
      Nat.div_lt_of_lt_mul (Nat.mul_lt_mul_of_pos_right word.toNat_lt (UInt64.lt_iff_toNat_lt.mp positive))
    rw [UInt64.lt_iff_toNat_lt, UInt64.toNat_ofNat_of_lt' (small.trans range.toNat_lt)]
    exact small
  | case3 word rest product thrown ih => exact ih

theorem acceptanceZone_add_one (positive : 0 < range) :
    acceptanceZone range + 1 = range.toNat * 1 <<< leadingZeros range ∧
      range.toNat * 1 <<< leadingZeros range < UInt64.size := by
  have some : range.toNat ≠ 0 := (UInt64.lt_iff_toNat_lt.mp positive).ne'
  have length : range.toNat.log2 < 64 := (Nat.log2_lt some).mpr range.toNat_lt
  have small : range.toNat * 1 <<< leadingZeros range < UInt64.size := by
    rw [Nat.one_shiftLeft, leadingZeros]
    calc range.toNat * 2 ^ (63 - range.toNat.log2)
        < 2 ^ (range.toNat.log2 + 1) * 2 ^ (63 - range.toNat.log2) :=
          Nat.mul_lt_mul_of_pos_right Nat.lt_log2_self (Nat.two_pow_pos _)
      _ = 2 ^ 64 := by rw [← Nat.pow_add]; congr 1; omega
  refine ⟨?_, small⟩
  rw [Nat.one_shiftLeft] at small ⊢
  rw [acceptanceZone, Nat.shiftLeft_eq, Nat.mod_eq_of_lt small]
  exact Nat.sub_add_cancel (Nat.mul_pos (Nat.pos_of_ne_zero some) (Nat.two_pow_pos _))

theorem draw_cons_eq_iff (inside : value < range) {word : UInt64} :
    (∀ rest, draw range (word :: rest) = (value, rest)) ↔
      value.toNat * UInt64.size ≤ word.toNat * range.toNat ∧
        word.toNat * range.toNat <
          value.toNat * UInt64.size + range.toNat * 1 <<< leadingZeros range := by
  obtain ⟨zone, small⟩ := acceptanceZone_add_one (UInt64.lt_of_le_of_lt value.zero_le inside)
  generalize range.toNat * 1 <<< leadingZeros range = kept at zone small
  have parts : (word.toNat * range.toNat % UInt64.size ≤ acceptanceZone range ∧
      word.toNat * range.toNat / UInt64.size = value.toNat) ↔
        value.toNat * UInt64.size ≤ word.toNat * range.toNat ∧
          word.toNat * range.toNat < value.toNat * UInt64.size + kept := by
    simp only [UInt64.size] at small ⊢
    omega
  rw [← parts]
  constructor
  · intro given
    by_cases low : word.toNat * range.toNat % UInt64.size ≤ acceptanceZone range
    · have drawn := congrArg Prod.fst (given [])
      simp only [draw, low, if_true] at drawn
      have high : word.toNat * range.toNat / UInt64.size < UInt64.size :=
        Nat.div_lt_of_lt_mul (Nat.mul_lt_mul'' word.toNat_lt range.toNat_lt)
      exact ⟨low, by rw [← drawn, UInt64.toNat_ofNat_of_lt' high]⟩
    · -- a word that is thrown away is gone from what is left
      have left := congrArg Prod.snd (given [word])
      simp [draw, low] at left
  · rintro ⟨low, high⟩ rest
    simp [draw, low, high]

/-- Every number below the range is drawn from equally many words, which lie in a row. -/
theorem exists_first_word (inside : value < range) :
    ∃ first, first + 1 <<< leadingZeros range ≤ UInt64.size ∧ ∀ word : UInt64,
      (∀ rest, draw range (word :: rest) = (value, rest)) ↔
        first ≤ word.toNat ∧ word.toNat < first + 1 <<< leadingZeros range := by
  have positive : 0 < range.toNat := Nat.zero_lt_of_lt (UInt64.lt_iff_toNat_lt.mp inside)
  obtain ⟨-, small⟩ := acceptanceZone_add_one (UInt64.lt_iff_toNat_lt.mpr positive)
  let start := value.toNat * UInt64.size
  let count := 1 <<< leadingZeros range
  have first_le (place : Nat) : start ⌈/⌉ range.toNat ≤ place ↔ start ≤ range.toNat * place :=
    ceilDiv_le_iff_le_mul positive
  have last_le (place : Nat) : start ⌈/⌉ range.toNat + count ≤ place ↔
      start + range.toNat * count ≤ range.toNat * place := by
    constructor
    · intro behind
      obtain ⟨more, rfl⟩ := Nat.exists_eq_add_of_le' (le_of_add_le_right behind)
      rw [Nat.add_le_add_iff_right, first_le] at behind
      rw [Nat.mul_add]
      exact Nat.add_le_add_right behind _
    · intro behind
      have enough : count ≤ place :=
        Nat.le_of_mul_le_mul_left (le_of_add_le_right behind) positive
      obtain ⟨more, rfl⟩ := Nat.exists_eq_add_of_le' enough
      rw [Nat.mul_add, Nat.add_le_add_iff_right, ← first_le] at behind
      exact Nat.add_le_add_right behind _
  refine ⟨start ⌈/⌉ range.toNat, (last_le _).mpr ?_, fun word => ?_⟩
  · have below : (value.toNat + 1) * UInt64.size ≤ range.toNat * UInt64.size :=
      Nat.mul_le_mul_right _ (UInt64.lt_iff_toNat_lt.mp inside)
    rw [Nat.succ_mul] at below
    exact (Nat.add_le_add_left small.le _).trans below
  · rw [draw_cons_eq_iff inside, Nat.mul_comm word.toNat, ← Nat.not_le, ← Nat.not_le, first_le, last_le]

def Transfers (maxFee : UInt64) (slot : Address × UInt64) (tx : Tx) : Prop :=
  ∃ fee, 1 ≤ fee ∧ fee ≤ maxFee ∧ tx = .transfer slot.1 slot.2 fee

theorem transfers_drawFees {maxFee : UInt64} (positive : 0 < maxFee) (slots : List (Address × UInt64))
    (words : List UInt64) : List.Forall₂ (Transfers maxFee) slots (drawFees maxFee slots words).1 := by
  induction slots generalizing words with
  | nil => exact .nil
  | cons slot slots ih =>
    have drawn : (draw maxFee words).1 < maxFee := draw_lt positive
    refine .cons ⟨(draw maxFee words).1 + 1, ?_, ?_, rfl⟩ (ih _)
    all_goals
      rw [UInt64.lt_iff_toNat_lt] at drawn
      have last := maxFee.toNat_lt
      rw [UInt64.le_iff_toNat_le, UInt64.toNat_add, UInt64.toNat_one, Nat.mod_eq_of_lt (by omega)]
      omega

theorem map_slots_of_transfers {maxFee : UInt64} {slots : List (Address × UInt64)} {txs : List Tx}
    (transfers : List.Forall₂ (Transfers maxFee) slots txs) :
    txs.map (fun tx => (Transaction.sender? tx, Transaction.sequence tx)) =
      slots.map fun slot => (some slot.1, slot.2) := by
  induction transfers with
  | nil => rfl
  | cons made _ ih =>
    obtain ⟨fee, -, -, rfl⟩ := made
    rw [List.map_cons, List.map_cons, ih]
    rfl

theorem ofIndex_injective : Function.Injective Address.ofIndex := by
  intro index other same
  have numbers := congrArg BitVec.toNat (Address.mk.inj same)
  rw [BitVec.toNat_ofNat, BitVec.toNat_ofNat, Nat.mod_eq_of_lt (index.toNat_lt.trans (by decide)),
    Nat.mod_eq_of_lt (other.toNat_lt.trans (by decide))] at numbers
  exact UInt64.toNat_inj.mp numbers

theorem nodup_slotsOf (firstSender senders txsPerSender : UInt64) :
    (slotsOf firstSender senders txsPerSender).Nodup := by
  have injective {bound : UInt64} {place other : Nat} (mem : place ∈ List.range bound.toNat)
      (mem' : other ∈ List.range bound.toNat) (same : UInt64.ofNat place = UInt64.ofNat other) :
      place = other := by
    have numbers := congrArg UInt64.toNat same
    rwa [UInt64.toNat_ofNat_of_lt' ((List.mem_range.mp mem).trans bound.toNat_lt),
      UInt64.toNat_ofNat_of_lt' ((List.mem_range.mp mem').trans bound.toNat_lt)] at numbers
  rw [slotsOf, List.nodup_flatMap]
  constructor
  · intro offset _
    exact List.nodup_range.map_on fun _ mem _ mem' same => injective mem mem' (Prod.mk.inj same).2
  · refine List.nodup_range.imp_of_mem fun mem mem' differ => ?_
    rintro slot inOne inOther
    obtain ⟨_, -, rfl⟩ := List.mem_map.mp inOne
    obtain ⟨_, -, same⟩ := List.mem_map.mp inOther
    have senders := ofIndex_injective (Prod.mk.inj same).1
    exact differ (injective mem mem' ((UInt64.add_right_inj _).mp senders).symm)

/-- Fees cannot be drawn only if there are transactions and no fee for them. Otherwise each slot has one
transfer, and no two have one slot. -/
theorem randomTransfers?_slots (words : List UInt64) (firstSender senders txsPerSender maxFee : UInt64) :
    (randomTransfers? words firstSender senders txsPerSender maxFee = none ↔
      maxFee = 0 ∧ slotsOf firstSender senders txsPerSender ≠ []) ∧
    ∀ txs rest, randomTransfers? words firstSender senders txsPerSender maxFee = some (txs, rest) →
      List.Forall₂ (Transfers maxFee) (slotsOf firstSender senders txsPerSender) txs ∧
      (txs.map fun tx => (Transaction.sender? tx, Transaction.sequence tx)).Nodup := by
  have distinct := nodup_slotsOf firstSender senders txsPerSender
  unfold randomTransfers?
  generalize slotsOf firstSender senders txsPerSender = slots at *
  have nonempty : (!slots.isEmpty) = true ↔ slots ≠ [] := by simp
  simp only [nonempty]
  split
  · rename_i nothing
    exact ⟨iff_of_true rfl nothing, nofun⟩
  · rename_i something
    refine ⟨iff_of_false nofun something, fun txs rest drawn => ?_⟩
    obtain rfl : (drawFees maxFee slots words).1 = txs := congrArg Prod.fst (Option.some.inj drawn)
    have transfers : List.Forall₂ (Transfers maxFee) slots (drawFees maxFee slots words).1 := by
      by_cases zero : maxFee = 0
      · rw [not_ne_iff.mp (not_and.mp something zero)]
        exact .nil
      · exact transfers_drawFees (UInt64.pos_iff_ne_zero.mpr zero) _ _
    refine ⟨transfers, map_slots_of_transfers transfers ▸ distinct.map_on ?_⟩
    rintro slot - other - same
    obtain ⟨senders, sequences⟩ := Prod.mk.inj same
    exact Prod.ext (Option.some.inj senders) sequences

end BlockBuilder.Ledger
