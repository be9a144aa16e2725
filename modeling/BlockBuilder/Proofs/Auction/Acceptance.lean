import BlockBuilder.Ledger.State
import BlockBuilder.Proofs.Auction.Conditions

namespace BlockBuilder.Terms

variable {C : Type} {terms : Terms} {funds : Funds C} {state : C} {bid : Bid} {highest : Option Coin}

theorem addCoins_eq_ok_iff {left right sum : Coin} :
    terms.addCoins left right = .ok sum ↔ left.denom = right.denom ∧ sum.denom = left.denom ∧
      left.amount.toNat + right.amount.toNat = sum.amount.toNat := by
  unfold addCoins
  by_cases alike : left.denom = right.denom
  · rw [if_neg (not_not_intro alike), Coin.add?, if_pos alike]
    cases added : Coin.addAmount? left.amount right.amount with
    | none =>
      simp only [Option.map_none, reduceCtorEq, false_iff]
      rintro ⟨-, -, exact⟩
      cases added.symm.trans (Coin.addAmount?_eq_some_iff.mpr exact)
    | some amount =>
      have exact := Coin.addAmount?_eq_some_iff.mp added
      simp only [Option.map_some, Except.ok.injEq]
      constructor
      · rintro rfl
        exact ⟨alike, rfl, exact⟩
      · rintro ⟨-, denom, exact'⟩
        rw [← denom, UInt64.toNat_inj.mp (exact.symm.trans exact')]
  · simp [alike]

theorem addCoins_eq_overflow_iff {left right : Coin} :
    terms.addCoins left right = .error .amountOverflow ↔
      left.denom = right.denom ∧ UInt64.size ≤ left.amount.toNat + right.amount.toNat := by
  unfold addCoins
  by_cases alike : left.denom = right.denom
  · rw [if_neg (not_not_intro alike), Coin.add?, if_pos alike, Coin.addAmount?]
    split_ifs with fits
    · simp only [Option.map_some, reduceCtorEq, alike, true_and, false_iff, Nat.not_le]
      exact fits
    · simp only [Option.map_none, alike, true_and, true_iff]
      exact Nat.not_lt.mp fits
  · simp [alike]

theorem lt_of_addCoins_overflow {left right : Coin}
    (overflow : terms.addCoins left right = .error .amountOverflow) (amount : UInt64) :
    amount.toNat < left.amount.toNat + right.amount.toNat :=
  Nat.lt_of_lt_of_le amount.toNat_lt (addCoins_eq_overflow_iff.mp overflow).2

theorem throwIf_last_eq_ok_iff {ε : Type} {failed : Prop} [Decidable failed] {cause : ε} :
    (if failed then throw cause else pure () : Except ε Unit) = .ok () ↔ ¬failed := by
  by_cases fails : failed
  · simp [fails, throw, throwThe, MonadExceptOf.throw]
  · simp [fails, pure, Except.pure]

theorem check_eq_ok_iff : terms.check = .ok () ↔
    terms.increment.denom = terms.reserve.denom ∧ terms.entryFee.denom = terms.reserve.denom := by
  have same {field coin} :
      terms.checkDenom field coin = .ok () ↔ coin.denom = terms.reserve.denom := by
    unfold checkDenom
    split <;> simp [*]
  simp only [check, bind_eq_ok_iff, same]
  constructor
  · rintro ⟨-, increment, entryFee⟩
    exact ⟨increment, entryFee⟩
  · rintro ⟨increment, entryFee⟩
    exact ⟨(), increment, entryFee⟩

theorem checkIncrement_eq_ok_iff {price : Coin} :
    terms.checkIncrement price highest = .ok () ↔ ∀ top ∈ highest,
      top.denom = terms.increment.denom ∧
        top.amount.toNat + terms.increment.amount.toNat ≤ price.amount.toNat := by
  cases highest with
  | none => simp [checkIncrement]
  | some top =>
    simp only [checkIncrement, bind_eq_ok_iff, throwIf_last_eq_ok_iff, Option.mem_some_iff,
      forall_eq', addCoins_eq_ok_iff, UInt64.not_lt, UInt64.le_iff_toNat_le]
    constructor
    · rintro ⟨minimum, ⟨alike, -, exact⟩, enough⟩
      exact ⟨alike, exact ▸ enough⟩
    · rintro ⟨alike, enough⟩
      have fits := Nat.lt_of_le_of_lt enough price.amount.toNat_lt
      refine ⟨⟨top.denom, top.amount + terms.increment.amount⟩, ⟨alike, rfl, ?_⟩, ?_⟩
      · rw [UInt64.toNat_add, Nat.mod_eq_of_lt fits]
      · rwa [UInt64.toNat_add, Nat.mod_eq_of_lt fits]

theorem checkFunds_eq_ok_iff :
    terms.checkFunds funds state bid = .ok () ↔ bid.price.denom = terms.entryFee.denom ∧
      ∃ available, funds state bid.bidder bid.price.denom = .ok available ∧
        available.denom = bid.price.denom ∧
          bid.price.amount.toNat + terms.entryFee.amount.toNat ≤ available.amount.toNat := by
  simp only [checkFunds, bind_eq_ok_iff, addCoins_eq_ok_iff]
  constructor
  · rintro ⟨required, ⟨alike, denom, exact⟩, paid⟩
    rw [denom] at paid
    cases found : funds state bid.bidder bid.price.denom with
    | error reason =>
      rw [found] at paid
      cases paid
    | ok available =>
      simp only [found, throwIf_last_eq_ok_iff, not_or, not_not, UInt64.not_lt,
        UInt64.le_iff_toNat_le] at paid
      exact ⟨alike, available, rfl, paid.1, exact ▸ paid.2⟩
  · rintro ⟨alike, available, found, denom, enough⟩
    -- the balance is at least the sum, so the sum fits
    have fits := Nat.lt_of_le_of_lt enough available.amount.toNat_lt
    refine ⟨⟨bid.price.denom, bid.price.amount + terms.entryFee.amount⟩, ⟨alike, rfl, ?_⟩, ?_⟩
    · rw [UInt64.toNat_add, Nat.mod_eq_of_lt fits]
    · simp only [found, throwIf_last_eq_ok_iff, not_or, not_not, UInt64.not_lt,
        UInt64.le_iff_toNat_le]
      refine ⟨denom, ?_⟩
      rwa [UInt64.toNat_add, Nat.mod_eq_of_lt fits]

theorem checkFair_eq_ok_iff_isFair {bidder : Address} {signers : List Signers} :
    checkFair bidder signers = .ok () ↔ isFair bidder signers = true := by
  simp [checkFair]

variable [BlockState C]

theorem toNat_targetHeight (fits : (BlockState.height state).toNat < maxCount) :
    (targetHeight state).toNat = (BlockState.height state).toNat +
      if (BlockState.phase state).isSubmission then 1 else 0 := by
  unfold targetHeight
  by_cases submission : (BlockState.phase state).isSubmission
  · rw [if_pos submission, if_pos submission, if_pos fits, UInt64.toNat_add]
    exact Nat.mod_eq_of_lt (Nat.lt_sub_iff_add_lt.mp fits)
  · rw [if_neg submission, if_neg submission]
    rfl

structure Acceptable (terms : Terms) (funds : Funds C) (state : C) (bid : Bid)
    (highest : Option Coin) : Prop where
  timely : (BlockState.height state).toNat +
    (if (BlockState.phase state).isSubmission then 1 else 0) ≤ bid.timeout.toNat
  small : bid.bundle.length ≤ terms.maxBundle
  denom : bid.price.denom = terms.reserve.denom
  reserve : terms.reserve.amount.toNat ≤ bid.price.amount.toNat
  outbids : ∀ top ∈ highest, top.denom = terms.reserve.denom ∧
    top.amount.toNat + terms.increment.amount.toNat ≤ bid.price.amount.toNat
  payable : ∃ available, funds state bid.bidder terms.reserve.denom = .ok available ∧
    available.denom = terms.reserve.denom ∧
      bid.price.amount.toNat + terms.entryFee.amount.toNat ≤ available.amount.toNat
  fair : terms.guarded = true → checkFair bid.bidder bid.signers = .ok ()

theorem accept_eq_ok_iff_acceptable (checked : terms.check = .ok ())
    (fits : (BlockState.height state).toNat < maxCount) :
    terms.accept funds state bid highest = .ok () ↔ Acceptable terms funds state bid highest := by
  obtain ⟨increment, entryFee⟩ := check_eq_ok_iff.mp checked
  rw [accept_eq_ok_iff, checkIncrement_eq_ok_iff, checkFunds_eq_ok_iff, UInt64.le_iff_toNat_le,
    UInt64.le_iff_toNat_le, toNat_targetHeight fits, increment, entryFee]
  constructor
  · rintro ⟨timely, small, denom, reserve, outbids, ⟨-, payable⟩, fair⟩
    rw [denom] at payable
    exact ⟨timely, small, denom, reserve, outbids, payable, fun guarded =>
      checkFair_eq_ok_iff_isFair.mpr (fair guarded)⟩
  · rintro ⟨timely, small, denom, reserve, outbids, payable, fair⟩
    rw [← denom] at payable
    exact ⟨timely, small, denom, reserve, outbids, ⟨denom, payable⟩, fun guarded =>
      checkFair_eq_ok_iff_isFair.mp (fair guarded)⟩

theorem Acceptable.of_less {funds' : Funds C} {highest' : Option Coin}
    (acceptable : Acceptable terms funds state bid highest)
    (lower : ∀ low ∈ highest', ∃ top ∈ highest, low.denom = top.denom ∧ low.amount ≤ top.amount)
    (richer : ∀ available, funds state bid.bidder terms.reserve.denom = .ok available →
      ∃ more, funds' state bid.bidder terms.reserve.denom = .ok more ∧ more.denom = available.denom ∧
        available.amount ≤ more.amount) : Acceptable terms funds' state bid highest' where
  timely := acceptable.timely
  small := acceptable.small
  denom := acceptable.denom
  reserve := acceptable.reserve
  outbids low given := by
    obtain ⟨top, highest, alike, below⟩ := lower low given
    obtain ⟨denom, outbids⟩ := acceptable.outbids top highest
    refine ⟨alike.trans denom, Nat.le_trans ?_ outbids⟩
    exact Nat.add_le_add_right (UInt64.le_iff_toNat_le.mp below) _
  payable := by
    obtain ⟨available, found, denom, enough⟩ := acceptable.payable
    obtain ⟨more, found', alike, above⟩ := richer available found
    exact ⟨more, found', alike.trans denom, Nat.le_trans enough (UInt64.le_iff_toNat_le.mp above)⟩
  fair := acceptable.fair

/-- A bid is accepted if and only if it is acceptable. A sum that does not fit is higher than what it
is compared with, and a bid stays accepted when the highest bid falls or the balance rises. -/
theorem accept_exact (checked : terms.check = .ok ())
    (fits : (BlockState.height state).toNat < maxCount) :
    (terms.accept funds state bid highest = .ok () ↔ Acceptable terms funds state bid highest) ∧
    (∀ top, terms.addCoins top terms.increment = .error .amountOverflow →
      bid.price.amount.toNat < top.amount.toNat + terms.increment.amount.toNat) ∧
    (terms.addCoins bid.price terms.entryFee = .error .amountOverflow → ∀ available : Coin,
      available.amount.toNat < bid.price.amount.toNat + terms.entryFee.amount.toNat) ∧
    ∀ (funds' : Funds C) (highest' : Option Coin),
      (∀ low ∈ highest', ∃ top ∈ highest, low.denom = top.denom ∧ low.amount ≤ top.amount) →
      (∀ available, funds state bid.bidder terms.reserve.denom = .ok available →
        ∃ more, funds' state bid.bidder terms.reserve.denom = .ok more ∧
          more.denom = available.denom ∧ available.amount ≤ more.amount) →
      terms.accept funds state bid highest = .ok () → terms.accept funds' state bid highest' = .ok () := by
  refine ⟨accept_eq_ok_iff_acceptable checked fits, fun top overflow => ?_, fun overflow available => ?_,
    fun funds' highest' lower richer accepted => ?_⟩
  · exact lt_of_addCoins_overflow overflow _
  · exact lt_of_addCoins_overflow overflow _
  · rw [accept_eq_ok_iff_acceptable checked fits] at accepted ⊢
    exact accepted.of_less lower richer

open Ledger in
theorem accept_exact_at_limits :
    let terms : Terms := { reserve := ⟨denom, 1⟩, increment := ⟨denom, 1⟩, entryFee := ⟨denom, 1⟩ }
    let state := (State.empty 0xFFFFFFFFFFFFFFFE .check 0).setBalance (.ofIndex 1)
      ⟨denom, 0xFFFFFFFFFFFFFFFF⟩
    let bid : Bid := ⟨.ofIndex 1, ⟨denom, 0xFFFFFFFFFFFFFFFE⟩, [[]], 0xFFFFFFFFFFFFFFFF, [∅]⟩
    let highest : Option Coin := some ⟨denom, 0xFFFFFFFFFFFFFFFD⟩
    terms.check = .ok () ∧ (BlockState.height state).toNat < maxCount ∧
      Acceptable terms State.funds state bid highest ∧
      terms.accept State.funds state bid none = .ok () := by
  intro terms state bid highest
  have checked : terms.check = .ok () := rfl
  have fits : (BlockState.height state).toNat < maxCount := by decide
  have accepted : terms.accept State.funds state bid highest = .ok () := by decide
  obtain ⟨exact, -, -, monotone⟩ : (terms.accept State.funds state bid highest = .ok () ↔
      Acceptable terms State.funds state bid highest) ∧ _ := accept_exact checked fits
  refine ⟨checked, fits, exact.mp accepted, monotone _ none ?_ ?_ accepted⟩
  · intro low none
    cases none
  · intro available found
    exact ⟨available, found, rfl, UInt64.le_refl _⟩

end BlockBuilder.Terms
