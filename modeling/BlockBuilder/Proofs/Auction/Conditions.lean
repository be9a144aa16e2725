import Mathlib.Data.List.Forall2
import BlockBuilder.Auction.Acceptance
import BlockBuilder.Proofs.Lane.Outcome

namespace BlockBuilder

variable {C T : Type}

theorem bundledTx_eq_ok_iff [Transaction T] {codec : Codec T} {position : Nat} {entry : Bytes}
    {tx : T} :
    Bid.bundledTx codec position entry = .ok tx ↔
      codec.decode entry = .ok tx ∧ Transaction.isBid tx = false := by
  unfold Bid.bundledTx
  cases codec.decode entry with
  | error cause => simp
  | ok found => by_cases bid : Transaction.isBid found <;> grind

namespace Bid

theorem firstRepeat?_eq_none_iff {bundle : List Bytes} :
    firstRepeat? bundle = none ↔ bundle.Nodup := by
  rw [firstRepeat?, List.find?_eq_none, List.Nodup, List.pairwise_iff_getElem]
  simp only [List.mem_range]
  constructor
  · intro fresh earlier later before inside ordered same
    apply fresh later inside
    simp only [List.getElem?_eq_getElem inside, List.contains_iff_mem, List.mem_take_iff_getElem]
    exact ⟨earlier, Nat.lt_min.mpr ⟨ordered, before⟩, same⟩
  · intro distinct later inside repeated
    simp only [List.getElem?_eq_getElem inside, List.contains_iff_mem, List.mem_take_iff_getElem]
      at repeated
    obtain ⟨earlier, before, same⟩ := repeated
    obtain ⟨ordered, within⟩ := Nat.lt_min.mp before
    exact distinct earlier later within inside ordered same

variable [Transaction T] {codec : Codec T} {tx : T} {bid : Bid}

theorem openBundle_eq_ok_iff {position : Nat} {entries : List Bytes} {txs : List T} :
    openBundle codec position entries = .ok txs ↔
      List.Forall₂ (fun entry tx => codec.decode entry = .ok tx ∧ Transaction.isBid tx = false)
        entries txs := by
  induction entries generalizing position txs with
  | nil => simp [openBundle]
  | cons entry rest ih =>
    simp only [openBundle, bind_eq_ok_iff, bundledTx_eq_ok_iff, ih, List.forall₂_cons_left_iff, pure,
      Except.pure, Except.ok.injEq]
    constructor
    · rintro ⟨tx, opened, others, others_opened, rfl⟩
      exact ⟨tx, others, opened, others_opened, rfl⟩
    · rintro ⟨tx, others, opened, others_opened, rfl⟩
      exact ⟨tx, opened, others, others_opened, rfl⟩

end Bid

section Making

variable [Transaction T] {codec : Codec T} {tx : T} {bid : Bid}

theorem isSome_offer? (tx : T) : (Transaction.offer? tx).isSome = Transaction.isBid tx := by
  rw [Transaction.offer?, Transaction.isBid, List.isSome_findSome?]
  rfl

theorem ofTx?_eq_none_iff : Bid.ofTx? codec tx = .ok none ↔ Transaction.isBid tx = false := by
  rw [← isSome_offer?, Bid.ofTx?]
  split
  · rename_i nothing
    simp [nothing]
  · rename_i offer found
    rw [found]
    simp only [throwUnless_eq_ok_iff, throwIf_eq_ok_iff]
    split
    · simp [throw, throwThe, MonadExceptOf.throw, bind, Except.bind]
    · simp [bind_eq_ok_iff, pure, Except.pure]

namespace Bid

structure Makes (codec : Codec T) (tx : T) (bid : Bid) : Prop where
  single : Transaction.offers tx = [some ⟨bid.bidder, bid.price, bid.bundle⟩]
  nonempty : bid.bundle ≠ []
  signed : bid.bidder ∈ Transaction.signers tx
  distinct : bid.bundle.Nodup
  timeout : bid.timeout = Transaction.timeout tx
  opened : ∃ txs, List.Forall₂ (fun entry tx => codec.decode entry = .ok tx ∧
    Transaction.isBid tx = false) bid.bundle txs ∧ bid.signers = txs.map signersOf

theorem ofTx?_eq_some_iff : ofTx? codec tx = .ok (some bid) ↔ Makes codec tx bid := by
  constructor
  · intro made
    unfold ofTx? at made
    split at made
    · cases made
    · rename_i offer offered
      simp only [throwUnless_eq_ok_iff, throwIf_eq_ok_iff, List.isEmpty_iff, List.contains_iff_mem]
        at made
      obtain ⟨messages, nonempty, signed, made⟩ := made
      split at made
      · cases made
      · rename_i apart
        have fresh := Option.eq_none_iff_forall_ne_some.mpr apart
        obtain ⟨txs, opened, made⟩ := bind_eq_ok_iff.mp made
        cases made
        obtain ⟨message, single⟩ := List.length_eq_one_iff.mp messages
        rw [Transaction.offer?, single, List.findSome?_singleton, id] at offered
        exact ⟨offered ▸ single, nonempty, signed, firstRepeat?_eq_none_iff.mp fresh, rfl, txs,
          openBundle_eq_ok_iff.mp opened, rfl⟩
  · rintro ⟨single, nonempty, signed, distinct, timeout, txs, opened, signers⟩
    have offered : Transaction.offer? tx = some ⟨bid.bidder, bid.price, bid.bundle⟩ := by
      rw [Transaction.offer?, single]
      rfl
    unfold ofTx?
    rw [offered]
    simp only [throwUnless_eq_ok_iff, throwIf_eq_ok_iff, List.isEmpty_iff, List.contains_iff_mem]
    refine ⟨by rw [single]; rfl, nonempty, signed, ?_⟩
    rw [firstRepeat?_eq_none_iff.mpr distinct]
    refine bind_eq_ok_iff.mpr ⟨txs, openBundle_eq_ok_iff.mpr opened, ?_⟩
    rw [← timeout, ← signers]
    rfl

end Bid

theorem offer?_of_made (made : Bid.ofTx? codec tx = .ok (some bid)) :
    Transaction.offer? tx = some ⟨bid.bidder, bid.price, bid.bundle⟩ := by
  rw [Transaction.offer?, (Bid.ofTx?_eq_some_iff.mp made).single]
  rfl

theorem isBid_of_made (made : Bid.ofTx? codec tx = .ok (some bid)) :
    Transaction.isBid tx = true := by
  rw [← isSome_offer?, offer?_of_made made]
  rfl

end Making

namespace Terms

variable [BlockState C] {terms : Terms} {funds : Funds C} {state : C} {bid : Bid}
  {highest : Option Coin}

theorem accept_eq_ok_iff :
    terms.accept funds state bid highest = .ok () ↔
      targetHeight state ≤ bid.timeout ∧ bid.bundle.length ≤ terms.maxBundle ∧
      bid.price.denom = terms.reserve.denom ∧ terms.reserve.amount ≤ bid.price.amount ∧
      terms.checkIncrement bid.price highest = .ok () ∧ terms.checkFunds funds state bid = .ok () ∧
      (terms.guarded = true → isFair bid.bidder bid.signers = true) := by
  have fair : (if terms.guarded then checkFair bid.bidder bid.signers else pure ()) = .ok () ↔
      (terms.guarded = true → isFair bid.bidder bid.signers = true) := by
    by_cases guarded : terms.guarded = true
    · simp [checkFair, guarded]
    · simp [guarded, pure, Except.pure]
  simp only [accept, throwIf_eq_ok_iff, throwUnless_eq_ok_iff, bind_eq_ok_iff, fair, UInt64.not_lt,
    Nat.not_lt]
  constructor
  · rintro ⟨timely, small, denom, reserve, _, exceeds, _, payable, fair⟩
    exact ⟨timely, small, denom, reserve, exceeds, payable, fair⟩
  · rintro ⟨timely, small, denom, reserve, exceeds, payable, fair⟩
    exact ⟨timely, small, denom, reserve, (), exceeds, (), payable, fair⟩

end Terms

variable [Transaction T]

/-- A transaction with one message, which is an offer by a signer, and whose bundle and price are as
the terms ask for in every state. -/
structure SoundBid (codec : Codec T) (terms : Terms) (tx : T) (offer : BidOffer) : Prop where
  single : Transaction.offers tx = [some offer]
  signed : offer.bidder ∈ Transaction.signers tx
  nonempty : offer.bundle ≠ []
  distinct : offer.bundle.Nodup
  small : offer.bundle.length ≤ terms.maxBundle
  denom : offer.price.denom = terms.reserve.denom
  reserve : terms.reserve.amount ≤ offer.price.amount
  opened : ∃ txs, List.Forall₂ (fun entry tx => codec.decode entry = .ok tx ∧
    Transaction.isBid tx = false) offer.bundle txs ∧
      (terms.guarded = true → isFair offer.bidder (txs.map Bid.signersOf) = true)

variable [BlockState C] {codec : Codec T} {terms : Terms} {funds : Funds C} {state : C} {tx : T}
  {bid : Bid} {highest : Option Coin}

theorem SoundBid.of_accepted (makes : Bid.Makes codec tx bid)
    (accepted : terms.accept funds state bid highest = .ok ()) :
    SoundBid codec terms tx ⟨bid.bidder, bid.price, bid.bundle⟩ := by
  obtain ⟨-, small, denom, reserve, -, -, fair⟩ := Terms.accept_eq_ok_iff.mp accepted
  obtain ⟨txs, opened, signers⟩ := makes.opened
  exact ⟨makes.single, makes.signed, makes.nonempty, makes.distinct, small, denom, reserve, txs,
    opened, signers ▸ fair⟩

end BlockBuilder
