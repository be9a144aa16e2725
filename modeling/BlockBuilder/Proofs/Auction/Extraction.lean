import Mathlib.Order.Bounds.Defs
import BlockBuilder.Ledger.Wire
import BlockBuilder.Proofs.Auction.Conditions

namespace BlockBuilder

variable {T : Type} [Transaction T] {codec : Codec T} {tx : T} {offer : BidOffer} {bundle : List Bytes}

theorem bundledTx_eq_error_iff {position : Nat} {entry : Bytes} {cause : AuctionError} :
    Bid.bundledTx codec position entry = .error cause ↔
      (∃ reason, codec.decode entry = .error reason ∧ cause = .unreadableTx position reason) ∨
        ∃ nested, codec.decode entry = .ok nested ∧ Transaction.isBid nested = true ∧
          cause = .nestedBid position := by
  unfold Bid.bundledTx
  cases codec.decode entry with
  | error reason =>
    constructor
    · intro refused
      cases refused
      exact .inl ⟨reason, rfl, rfl⟩
    · rintro (⟨_, same, rfl⟩ | ⟨_, read, -⟩)
      · cases same
        rfl
      · cases read
  | ok found =>
    dsimp only
    constructor
    · intro refused
      split at refused
      · rename_i isBid
        cases refused
        exact .inr ⟨found, rfl, isBid, rfl⟩
      · cases refused
    · rintro (⟨_, unreadable, -⟩ | ⟨_, same, isBid, rfl⟩)
      · cases unreadable
      · cases same
        rw [if_pos isBid]

namespace Bid

def Opens (codec : Codec T) (entry : Bytes) : Prop :=
  ∃ tx, codec.decode entry = .ok tx ∧ Transaction.isBid tx = false

def Repeats (bundle : List Bytes) (position : Nat) : Prop :=
  ∃ earlier < position, ∃ entry, bundle[earlier]? = some entry ∧ bundle[position]? = some entry

def OpensUpTo (codec : Codec T) (bundle : List Bytes) (position : Nat) : Prop :=
  ∀ earlier < position, ∀ entry, bundle[earlier]? = some entry → Opens codec entry

/-! ## Defects of entries -/

theorem firstRepeat?_eq_some_iff {position : Nat} :
    firstRepeat? bundle = some position ↔ IsLeast {position | Repeats bundle position} position := by
  obtain ⟨test, search, exact⟩ : ∃ test, firstRepeat? bundle = (List.range bundle.length).find? test ∧
      ∀ place, test place = true ↔ Repeats bundle place := by
    refine ⟨_, rfl, fun place => ?_⟩
    cases found : bundle[place]? with
    | none => simp [Repeats, found]
    | some entry =>
      simp only [List.contains_iff_mem, List.mem_iff_getElem?, List.getElem?_take, Repeats, found]
      constructor
      · rintro ⟨earlier, same⟩
        split at same
        · rename_i before
          exact ⟨earlier, before, entry, same, rfl⟩
        · cases same
      · rintro ⟨earlier, before, _, same, found'⟩
        exact ⟨earlier, by rw [if_pos before, same, found']⟩
  have inside {place : Nat} (repeats : Repeats bundle place) : place < bundle.length := by
    obtain ⟨-, -, entry, -, found⟩ := repeats
    exact (List.getElem?_eq_some_iff.mp found).1
  rw [search, List.find?_range_eq_some, exact, List.mem_range]
  constructor
  · rintro ⟨repeats, -, fresh⟩
    refine ⟨repeats, fun other repeats' => Nat.le_of_not_lt fun before => ?_⟩
    have unrepeated := (Bool.not_eq_true' _).mp (fresh other before)
    cases ((exact other).mpr repeats').symm.trans unrepeated
  · rintro ⟨repeats, least⟩
    refine ⟨repeats, inside repeats, fun other before => ?_⟩
    rw [Bool.not_eq_true', ← Bool.not_eq_true, exact]
    exact fun repeats' => Nat.not_le_of_lt before (least repeats')

theorem openBundle_eq_error_iff {start : Nat} {cause : AuctionError} :
    openBundle codec start bundle = .error cause ↔
      ∃ position entry, bundle[position]? = some entry ∧ OpensUpTo codec bundle position ∧
        bundledTx codec (start + position) entry = .error cause := by
  induction bundle generalizing start with
  | nil => simp [openBundle]
  | cons first rest ih =>
    rw [openBundle, bind_eq_error_iff]
    constructor
    · rintro (refused | ⟨tx, opened, later⟩)
      · exact ⟨0, first, rfl, fun earlier before => absurd before (Nat.not_lt_zero _), refused⟩
      · rw [bind_eq_error_iff, ih] at later
        rcases later with ⟨position, entry, found, opens, refused⟩ | ⟨txs, -, returned⟩
        · refine ⟨position + 1, entry, found, fun earlier before other listed => ?_, ?_⟩
          · cases earlier with
            | zero =>
              cases listed
              exact ⟨tx, bundledTx_eq_ok_iff.mp opened⟩
            | succ earlier => exact opens earlier (Nat.lt_of_succ_lt_succ before) other listed
          · rwa [show start + (position + 1) = start + 1 + position by omega]
        · cases returned
    · rintro ⟨position, entry, found, opens, refused⟩
      cases position with
      | zero =>
        cases found
        exact .inl refused
      | succ position =>
        -- the first entry opens, so the refusal is found in what follows it
        obtain ⟨tx, readable⟩ := opens 0 (Nat.succ_pos _) first rfl
        refine .inr ⟨tx, bundledTx_eq_ok_iff.mpr readable, bind_eq_error_iff.mpr (.inl (ih.mpr ?_))⟩
        refine ⟨position, entry, found, fun earlier before => ?_, ?_⟩
        · exact opens (earlier + 1) (Nat.succ_lt_succ before)
        · rwa [show start + 1 + position = start + (position + 1) by omega]

/-! ## Answers -/

/-- What a transaction is answered with: the bid that it makes, or the first of its defects. -/
inductive Answers (codec : Codec T) (tx : T) : Except AuctionError (Option Bid) → Prop
  | nothing (noBid : Transaction.isBid tx = false) : Answers codec tx (.ok none)
  | crowded (isBid : Transaction.isBid tx = true) (crowded : (Transaction.offers tx).length ≠ 1) :
      Answers codec tx (.error (.malformed (.messageCount (Transaction.offers tx).length)))
  | empty {offer : BidOffer} (single : Transaction.offers tx = [some offer]) (empty : offer.bundle = []) :
      Answers codec tx (.error (.malformed .emptyBundle))
  | unsigned {offer : BidOffer} (single : Transaction.offers tx = [some offer])
      (nonempty : offer.bundle ≠ []) (unsigned : offer.bidder ∉ Transaction.signers tx) :
      Answers codec tx (.error (.malformed (.unsigned offer.bidder)))
  | repeated {offer : BidOffer} {position : Nat} (single : Transaction.offers tx = [some offer])
      (signed : offer.bidder ∈ Transaction.signers tx)
      (first : IsLeast {position | Repeats offer.bundle position} position) :
      Answers codec tx (.error (.repeatedTx position))
  | unreadable {offer : BidOffer} {position : Nat} {entry : Bytes} {reason : CodecError}
      (single : Transaction.offers tx = [some offer])
      (signed : offer.bidder ∈ Transaction.signers tx) (distinct : offer.bundle.Nodup)
      (found : offer.bundle[position]? = some entry) (first : OpensUpTo codec offer.bundle position)
      (unreadable : codec.decode entry = .error reason) :
      Answers codec tx (.error (.unreadableTx position reason))
  | nested {offer : BidOffer} {position : Nat} {entry : Bytes} {nested : T}
      (single : Transaction.offers tx = [some offer])
      (signed : offer.bidder ∈ Transaction.signers tx) (distinct : offer.bundle.Nodup)
      (found : offer.bundle[position]? = some entry) (first : OpensUpTo codec offer.bundle position)
      (read : codec.decode entry = .ok nested) (isBid : Transaction.isBid nested = true) :
      Answers codec tx (.error (.nestedBid position))
  | bid {bid : Bid} (makes : Makes codec tx bid) : Answers codec tx (.ok (some bid))

theorem mem_signersOf_iff {account : Address} :
    account ∈ signersOf tx ↔ account ∈ Transaction.signers tx := by
  rw [signersOf, Std.TreeSet.mem_ofList, List.contains_iff_mem]

theorem offer?_of_single (single : Transaction.offers tx = [some offer]) :
    Transaction.offer? tx = some offer := by
  rw [Transaction.offer?, single]
  rfl

theorem exists_single (isBid : Transaction.isBid tx = true)
    (messages : (Transaction.offers tx).length = 1) : ∃ offer, Transaction.offers tx = [some offer] := by
  obtain ⟨message, single⟩ := List.length_eq_one_iff.mp messages
  rw [Transaction.isBid, single, List.any_cons, List.any_nil, Bool.or_false] at isBid
  obtain ⟨offer, rfl⟩ := Option.isSome_iff_exists.mp isBid
  exact ⟨offer, single⟩

theorem ofTx?_of_crowded (isBid : Transaction.isBid tx = true)
    (crowded : (Transaction.offers tx).length ≠ 1) :
    ofTx? codec tx = .error (.malformed (.messageCount (Transaction.offers tx).length)) := by
  rw [← isSome_offer?, Option.isSome_iff_exists] at isBid
  obtain ⟨offer, offered⟩ := isBid
  rw [ofTx?, offered]
  dsimp only
  rw [if_neg crowded]
  rfl

theorem ofTx?_of_single (codec : Codec T) (single : Transaction.offers tx = [some offer]) :
    ofTx? codec tx =
      if offer.bundle.isEmpty then .error (.malformed .emptyBundle)
      else if (Transaction.signers tx).contains offer.bidder then
        match firstRepeat? offer.bundle with
        | some position => .error (.repeatedTx position)
        | none => (openBundle codec 0 offer.bundle).map fun txs =>
          some ⟨offer.bidder, offer.price, offer.bundle, Transaction.timeout tx, txs.map signersOf⟩
      else .error (.malformed (.unsigned offer.bidder)) := by
  have messages : (Transaction.offers tx).length = 1 := by
    rw [single]
    rfl
  rw [ofTx?, offer?_of_single single]
  dsimp only
  rw [if_pos messages]
  split
  · rfl
  · split
    · cases firstRepeat? offer.bundle with
      | some position => rfl
      | none => cases openBundle codec 0 offer.bundle <;> rfl
    · rfl

theorem ofTx?_of_signed (codec : Codec T) (single : Transaction.offers tx = [some offer])
    (nonempty : offer.bundle ≠ []) (signed : offer.bidder ∈ Transaction.signers tx) :
    ofTx? codec tx =
      match firstRepeat? offer.bundle with
      | some position => .error (.repeatedTx position)
      | none => (openBundle codec 0 offer.bundle).map fun txs =>
        some ⟨offer.bidder, offer.price, offer.bundle, Transaction.timeout tx, txs.map signersOf⟩ := by
  rw [ofTx?_of_single codec single, if_neg (by simpa using nonempty), if_pos (by simpa using signed)]

theorem ofTx?_of_unopened {position : Nat} {entry : Bytes} {cause : AuctionError}
    (single : Transaction.offers tx = [some offer]) (signed : offer.bidder ∈ Transaction.signers tx)
    (distinct : offer.bundle.Nodup) (found : offer.bundle[position]? = some entry)
    (first : OpensUpTo codec offer.bundle position)
    (refused : bundledTx codec position entry = .error cause) : ofTx? codec tx = .error cause := by
  have nonempty : offer.bundle ≠ [] := by
    intro none
    rw [none] at found
    cases found
  have stopped : openBundle codec 0 offer.bundle = .error cause :=
    openBundle_eq_error_iff.mpr ⟨position, entry, found, first, by rwa [Nat.zero_add]⟩
  rw [ofTx?_of_signed codec single nonempty signed, firstRepeat?_eq_none_iff.mpr distinct, stopped]
  rfl

theorem Answers.eq {answer : Except AuctionError (Option Bid)} (answers : Answers codec tx answer) :
    ofTx? codec tx = answer := by
  cases answers with
  | nothing noBid => exact ofTx?_eq_none_iff.mpr noBid
  | crowded isBid crowded => exact ofTx?_of_crowded isBid crowded
  | empty single empty => rw [ofTx?_of_single codec single, if_pos (List.isEmpty_iff.mpr empty)]
  | unsigned single nonempty unsigned =>
    rw [ofTx?_of_single codec single, if_neg (by simpa using nonempty), if_neg (by simpa using unsigned)]
  | @repeated offer position single signed first =>
    have nonempty : offer.bundle ≠ [] := by
      rintro none
      obtain ⟨-, -, entry, -, found⟩ := first.1
      rw [none] at found
      cases found
    rw [ofTx?_of_signed codec single nonempty signed, firstRepeat?_eq_some_iff.mpr first]
  | unreadable single signed distinct found first unreadable =>
    exact ofTx?_of_unopened single signed distinct found first
      (bundledTx_eq_error_iff.mpr (.inl ⟨_, unreadable, rfl⟩))
  | nested single signed distinct found first read isBid =>
    exact ofTx?_of_unopened single signed distinct found first
      (bundledTx_eq_error_iff.mpr (.inr ⟨_, read, isBid, rfl⟩))
  | bid makes => exact ofTx?_eq_some_iff.mpr makes

theorem exists_answers (codec : Codec T) (tx : T) : ∃ answer, Answers codec tx answer := by
  cases isBid : Transaction.isBid tx with
  | false => exact ⟨_, .nothing isBid⟩
  | true =>
    by_cases messages : (Transaction.offers tx).length = 1
    · obtain ⟨offer, single⟩ := exists_single isBid messages
      by_cases empty : offer.bundle = []
      · exact ⟨_, .empty single empty⟩
      by_cases signed : offer.bidder ∈ Transaction.signers tx
      · cases repeated : firstRepeat? offer.bundle with
        | some position => exact ⟨_, .repeated single signed (firstRepeat?_eq_some_iff.mp repeated)⟩
        | none =>
          have distinct := firstRepeat?_eq_none_iff.mp repeated
          cases opened : openBundle codec 0 offer.bundle with
          | error cause =>
            obtain ⟨position, entry, found, first, refused⟩ := openBundle_eq_error_iff.mp opened
            rcases bundledTx_eq_error_iff.mp refused with ⟨_, unreadable, -⟩ | ⟨_, read, isBid, -⟩
            · exact ⟨_, .unreadable single signed distinct found first unreadable⟩
            · exact ⟨_, .nested single signed distinct found first read isBid⟩
          | ok txs =>
            let bid : Bid := ⟨offer.bidder, offer.price, offer.bundle, Transaction.timeout tx,
              txs.map signersOf⟩
            have makes : Makes codec tx bid :=
              ⟨single, empty, signed, distinct, rfl, txs, openBundle_eq_ok_iff.mp opened, rfl⟩
            exact ⟨_, .bid makes⟩
      · exact ⟨_, .unsigned single empty signed⟩
    · exact ⟨_, .crowded isBid messages⟩

/-! ## Bids -/

theorem forall_opens_iff :
    (∀ entry ∈ bundle, Opens codec entry) ↔ ∃ txs, List.Forall₂ (fun entry tx =>
      codec.decode entry = .ok tx ∧ Transaction.isBid tx = false) bundle txs := by
  induction bundle with
  | nil => simp
  | cons entry rest ih =>
    rw [List.forall_mem_cons, ih]
    constructor
    · rintro ⟨⟨tx, opens⟩, txs, later⟩
      exact ⟨tx :: txs, .cons opens later⟩
    · rintro ⟨_, opened⟩
      obtain ⟨tx, txs, opens, later, -⟩ := List.forall₂_cons_left_iff.mp opened
      exact ⟨⟨tx, opens⟩, txs, later⟩

theorem Makes.signers_of_read {bid : Bid} (makes : Makes codec tx bid) {position : Nat} {entry : Bytes}
    {inner : T} (found : bid.bundle[position]? = some entry) (read : codec.decode entry = .ok inner) :
    bid.signers[position]? = some (signersOf inner) := by
  obtain ⟨txs, opened, signers⟩ := makes.opened
  obtain ⟨inside, rfl⟩ := List.getElem?_eq_some_iff.mp found
  have inside' : position < txs.length := opened.length_eq ▸ inside
  obtain ⟨readToo, -⟩ := opened.get inside inside'
  cases read.symm.trans readToo
  rw [signers, List.getElem?_map, List.getElem?_eq_getElem inside']
  rfl

/-- A transaction is answered exactly as `Answers` says. It makes no bid if and only if it has no offer,
and a bid if and only if it has one message, an offer by a signer for a bundle of one or more entries that
are different from each other and are transactions but no bids; the bid then carries what is offered,
until when, and who signed what. -/
theorem ofTx?_exact (codec : Codec T) (tx : T) :
    (∀ answer, ofTx? codec tx = answer ↔ Answers codec tx answer) ∧
    (ofTx? codec tx = .ok none ↔ Transaction.isBid tx = false) ∧
    ((∃ bid, ofTx? codec tx = .ok (some bid)) ↔
      ∃ offer, Transaction.offers tx = [some offer] ∧ offer.bundle ≠ [] ∧
        offer.bidder ∈ Transaction.signers tx ∧ offer.bundle.Nodup ∧
          ∀ entry ∈ offer.bundle, Opens codec entry) ∧
    ∀ bid, ofTx? codec tx = .ok (some bid) →
      Transaction.offers tx = [some ⟨bid.bidder, bid.price, bid.bundle⟩] ∧
      bid.timeout = Transaction.timeout tx ∧ bid.signers.length = bid.bundle.length ∧
      ∀ (position : Nat) entry inner, bid.bundle[position]? = some entry →
        codec.decode entry = .ok inner → ∃ signers, bid.signers[position]? = some signers ∧
          ∀ account, account ∈ signers ↔ account ∈ Transaction.signers inner := by
  refine ⟨fun answer => ⟨?_, Answers.eq⟩, ofTx?_eq_none_iff, ?_, ?_⟩
  · rintro rfl
    obtain ⟨answer, answers⟩ := exists_answers codec tx
    exact answers.eq ▸ answers
  · simp only [ofTx?_eq_some_iff, forall_opens_iff]
    constructor
    · rintro ⟨bid, makes⟩
      obtain ⟨txs, opened, -⟩ := makes.opened
      exact ⟨_, makes.single, makes.nonempty, makes.signed, makes.distinct, txs, opened⟩
    · rintro ⟨offer, single, nonempty, signed, distinct, txs, opened⟩
      exact ⟨⟨offer.bidder, offer.price, offer.bundle, Transaction.timeout tx, txs.map signersOf⟩,
        single, nonempty, signed, distinct, rfl, txs, opened, rfl⟩
  · intro bid made
    have makes := ofTx?_eq_some_iff.mp made
    refine ⟨makes.single, makes.timeout, ?_, fun position entry inner found read => ?_⟩
    · obtain ⟨txs, opened, signers⟩ := makes.opened
      rw [signers, List.length_map, opened.length_eq]
    · exact ⟨_, makes.signers_of_read found read, fun account => mem_signersOf_iff⟩

open Ledger in
theorem exists_unsigned_before_repeated :
    let entry := Wire.encode (Tx.transfer (.ofIndex 1) 1 0)
    let offer : BidOffer := ⟨.ofIndex 1, ⟨denom, 100⟩, [entry, entry]⟩
    let tx := { Tx.bid (.ofIndex 1) 0 100 [entry, entry] with signers := [.ofIndex 2] }
    Transaction.offers tx = [some offer] ∧ offer.bundle ≠ [] ∧
      IsLeast {position | Repeats offer.bundle position} 1 ∧
      ofTx? Wire.codec tx = .error (.malformed (.unsigned offer.bidder)) ∧
      ofTx? Wire.codec tx ≠ .error (.repeatedTx 1) := by
  intro entry offer tx
  have single : Transaction.offers tx = [some offer] := rfl
  have unsigned : offer.bidder ∉ Transaction.signers tx := by decide
  have answered : ofTx? Wire.codec tx = .error (.malformed (.unsigned offer.bidder)) :=
    (Answers.unsigned single (List.cons_ne_nil _ _) unsigned).eq
  refine ⟨single, List.cons_ne_nil _ _, ⟨⟨0, Nat.one_pos, entry, rfl, rfl⟩, ?_⟩, answered, ?_⟩
  · rintro position ⟨earlier, before, -⟩
    exact Nat.one_le_of_lt before
  · rw [answered]
    simp

end Bid

end BlockBuilder
