import BlockBuilder.Ledger.Wire
import BlockBuilder.Proofs.Lane.Outcome

namespace BlockBuilder.Ledger.Wire

variable {α β : Type} {bytes rest : Bytes}

def Short (items : List α) : Prop := items.length < UInt64.size

instance (items : List α) : Decidable (Short items) :=
  inferInstanceAs (Decidable (items.length < UInt64.size))

def FitsText (text : String) : Prop := Short (Utf8.encode text)

instance (text : String) : Decidable (FitsText text) :=
  inferInstanceAs (Decidable (Short (Utf8.encode text)))

def FitsOffer (offer : BidOffer) : Prop :=
  FitsText offer.price.denom ∧ Short offer.bundle ∧ ∀ entry ∈ offer.bundle, Short entry

instance (offer : BidOffer) : Decidable (FitsOffer offer) :=
  inferInstanceAs (Decidable (_ ∧ _ ∧ _))

def FitsMessage : Message → Prop
  | .transfer _ _ amount => FitsText amount.denom
  | .bid offer => FitsOffer offer

instance : (message : Message) → Decidable (FitsMessage message)
  | .transfer _ _ amount => inferInstanceAs (Decidable (FitsText amount.denom))
  | .bid offer => inferInstanceAs (Decidable (FitsOffer offer))

def Fits (tx : Tx) : Prop :=
  (Short tx.messages ∧ ∀ message ∈ tx.messages, FitsMessage message) ∧
    Short tx.signers ∧ FitsText tx.fee.denom ∧ Short tx.memo

instance (tx : Tx) : Decidable (Fits tx) := inferInstanceAs (Decidable (_ ∧ _))

/-- Reading takes from the front of the bytes what writing puts there, for the values that fit. -/
def Exact (fits : α → Prop) (put : α → Bytes) (get : Reader α) : Prop :=
  ∀ bytes value rest, get bytes = .ok (value, rest) ↔ fits value ∧ bytes = put value ++ rest

theorem bind_eq_ok {get : Reader α} {next : α → Reader β} {value : β} :
    (get >>= next) bytes = .ok (value, rest) ↔
      ∃ first middle, get bytes = .ok (first, middle) ∧ next first middle = .ok (value, rest) := by
  change (get bytes >>= fun read => next read.1 read.2) = .ok (value, rest) ↔ _
  rw [bind_eq_ok_iff, Prod.exists]

theorem pure_eq_ok {first value : α} :
    (pure first : Reader α) bytes = .ok (value, rest) ↔ first = value ∧ bytes = rest := by
  change (.ok (first, bytes) : Except WireError (α × Bytes)) = .ok (value, rest) ↔ _
  rw [Except.ok.injEq, Prod.mk.injEq]

theorem split?_eq_some_iff {count : Nat} {taken : Bytes} :
    split? count bytes = some (taken, rest) ↔ taken.length = count ∧ bytes = taken ++ rest := by
  induction count generalizing bytes taken with
  | zero =>
    rw [split?, Option.some.injEq, Prod.mk.injEq, List.length_eq_zero_iff]
    constructor
    · rintro ⟨rfl, rfl⟩
      exact ⟨rfl, rfl⟩
    · rintro ⟨rfl, rfl⟩
      exact ⟨rfl, rfl⟩
  | succ count ih =>
    cases bytes with
    | nil =>
      simp only [split?, reduceCtorEq, false_iff]
      rintro ⟨length, nothing⟩
      simp [(List.nil_eq_append_iff.mp nothing).1] at length
    | cons byte others =>
      rw [split?, Option.map_eq_some_iff, Prod.exists]
      constructor
      · rintro ⟨front, back, found, same⟩
        cases same
        obtain ⟨rfl, rfl⟩ := ih.mp found
        exact ⟨rfl, rfl⟩
      · rintro ⟨length, whole⟩
        cases taken with
        | nil => cases length
        | cons first front =>
          cases whole
          exact ⟨front, rest, ih.mpr ⟨Nat.succ.inj length, rfl⟩, rfl⟩

theorem getBytes_eq_ok_iff {count : Nat} {error : WireError} {taken : Bytes} :
    getBytes count error bytes = .ok (taken, rest) ↔ taken.length = count ∧ bytes = taken ++ rest := by
  rw [← split?_eq_some_iff, getBytes]
  cases split? count bytes <;> simp

theorem getNat_eq_ok_iff {width value : Nat} :
    getNat width bytes = .ok (value, rest) ↔
      value < Bytes.valueCount width ∧ bytes = Bytes.littleEndian width value ++ rest := by
  simp only [getNat, bind_eq_ok, pure_eq_ok, getBytes_eq_ok_iff]
  constructor
  · rintro ⟨taken, _, ⟨rfl, rfl⟩, rfl, rfl⟩
    rw [Bytes.littleEndian_ofLittleEndian]
    exact ⟨Bytes.ofLittleEndian_lt taken, rfl⟩
  · rintro ⟨bound, rfl⟩
    exact ⟨_, rest, ⟨Bytes.length_littleEndian .., rfl⟩, Bytes.ofLittleEndian_littleEndian bound, rfl⟩

theorem getWord_eq_ok_iff {value : UInt64} :
    getWord bytes = .ok (value, rest) ↔ bytes = putWord value ++ rest := by
  simp only [getWord, bind_eq_ok, pure_eq_ok, getNat_eq_ok_iff]
  constructor
  · rintro ⟨number, _, ⟨bound, rfl⟩, rfl, rfl⟩
    rw [putWord, UInt64.toNat_ofNat_of_lt' bound, putNat]
  · rintro rfl
    exact ⟨value.toNat, rest, ⟨value.toNat_lt, rfl⟩, UInt64.ofNat_toNat, rfl⟩

theorem getNat_length_eq_ok_iff {items : List α} :
    getNat 8 bytes = .ok (items.length, rest) ↔ Short items ∧ bytes = putNat items.length ++ rest :=
  getNat_eq_ok_iff

theorem getBlob_eq_ok_iff {blob : Bytes} :
    getBlob bytes = .ok (blob, rest) ↔ Short blob ∧ bytes = putBytes blob ++ rest := by
  simp only [getBlob, bind_eq_ok, getBytes_eq_ok_iff, putBytes, List.append_assoc]
  constructor
  · rintro ⟨_, _, counted, rfl, rfl⟩
    exact getNat_length_eq_ok_iff.mp counted
  · intro written
    exact ⟨blob.length, _, getNat_length_eq_ok_iff.mpr written, rfl, rfl⟩

theorem getText_eq_ok_iff {text : String} :
    getText bytes = .ok (text, rest) ↔ FitsText text ∧ bytes = putText text ++ rest := by
  simp only [getText, bind_eq_ok, getBytes_eq_ok_iff, putText, putBytes, List.append_assoc]
  constructor
  · rintro ⟨_, _, counted, taken, _, ⟨rfl, rfl⟩, read⟩
    cases decoded : Utf8.decode? taken with
    | none =>
      rw [decoded] at read
      cases read
    | some found =>
      rw [decoded, pure_eq_ok] at read
      obtain ⟨rfl, rfl⟩ := read
      rw [FitsText, Utf8.encode_of_decode? decoded]
      exact getNat_length_eq_ok_iff.mp counted
  · intro written
    refine ⟨_, _, getNat_length_eq_ok_iff.mpr written, Utf8.encode text, rest, ⟨rfl, rfl⟩, ?_⟩
    rw [Utf8.decode?_encode, pure_eq_ok]
    exact ⟨rfl, rfl⟩

theorem getAddress_eq_ok_iff {address : Address} :
    getAddress bytes = .ok (address, rest) ↔ bytes = address.toBytes ++ rest := by
  simp only [getAddress, bind_eq_ok, pure_eq_ok, getBytes_eq_ok_iff]
  constructor
  · rintro ⟨taken, _, ⟨length, rfl⟩, rfl, rfl⟩
    rw [Address.toBytes_ofBytes length]
  · rintro rfl
    exact ⟨_, rest, ⟨address.length_toBytes, rfl⟩, address.ofBytes_toBytes, rfl⟩

section Lists

variable {fits : α → Prop} {put : α → Bytes} {get : Reader α} {items : List α}

theorem getMany_eq_ok_iff (exact : Exact fits put get) {count : Nat} :
    getMany get count bytes = .ok (items, rest) ↔
      items.length = count ∧ (∀ item ∈ items, fits item) ∧ bytes = items.flatMap put ++ rest := by
  induction count generalizing bytes rest items with
  | zero =>
    rw [getMany, pure_eq_ok, List.length_eq_zero_iff]
    constructor
    · rintro ⟨rfl, rfl⟩
      simp
    · rintro ⟨rfl, -, rfl⟩
      exact ⟨rfl, rfl⟩
  | succ count ih =>
    simp only [getMany, bind_eq_ok, pure_eq_ok, exact _ _ _, ih]
    constructor
    · rintro ⟨item, _, ⟨fit, rfl⟩, others, _, ⟨rfl, fitOthers, rfl⟩, rfl, rfl⟩
      exact ⟨rfl, List.forall_mem_cons.mpr ⟨fit, fitOthers⟩, by simp⟩
    · rintro ⟨length, fit, rfl⟩
      cases items with
      | nil => cases length
      | cons item others =>
        obtain ⟨first, fitOthers⟩ := List.forall_mem_cons.mp fit
        exact ⟨item, _, ⟨first, by simp⟩, others, rest, ⟨Nat.succ.inj length, fitOthers, rfl⟩, rfl, rfl⟩

theorem getList_eq_ok_iff (exact : Exact fits put get) :
    getList get bytes = .ok (items, rest) ↔
      (Short items ∧ ∀ item ∈ items, fits item) ∧ bytes = putList put items ++ rest := by
  simp only [getList, bind_eq_ok, getMany_eq_ok_iff exact, putList, List.append_assoc]
  constructor
  · rintro ⟨_, _, counted, rfl, fit, rfl⟩
    obtain ⟨short, rfl⟩ := getNat_length_eq_ok_iff.mp counted
    exact ⟨⟨short, fit⟩, rfl⟩
  · rintro ⟨⟨short, fit⟩, rfl⟩
    exact ⟨_, _, getNat_length_eq_ok_iff.mpr ⟨short, rfl⟩, rfl, fit, rfl⟩

end Lists

theorem getCoin_eq_ok_iff {coin : Coin} :
    getCoin bytes = .ok (coin, rest) ↔ FitsText coin.denom ∧ bytes = putCoin coin ++ rest := by
  simp only [getCoin, bind_eq_ok, pure_eq_ok, getText_eq_ok_iff, getWord_eq_ok_iff, putCoin,
    List.append_assoc]
  constructor
  · rintro ⟨denom, _, ⟨fit, rfl⟩, amount, _, rfl, rfl, rfl⟩
    exact ⟨fit, rfl⟩
  · rintro ⟨fit, rfl⟩
    exact ⟨_, _, ⟨fit, rfl⟩, _, _, rfl, rfl, rfl⟩

theorem getOffer_eq_ok_iff {offer : BidOffer} :
    getOffer bytes = .ok (offer, rest) ↔ FitsOffer offer ∧ bytes = putOffer offer ++ rest := by
  have entries : Exact Short putBytes getBlob := fun _ _ _ => getBlob_eq_ok_iff
  simp only [getOffer, bind_eq_ok, pure_eq_ok, getAddress_eq_ok_iff, getCoin_eq_ok_iff,
    getList_eq_ok_iff entries, putOffer, List.append_assoc]
  constructor
  · rintro ⟨bidder, _, rfl, price, _, ⟨fit, rfl⟩, bundle, _, ⟨short, rfl⟩, rfl, rfl⟩
    exact ⟨⟨fit, short⟩, rfl⟩
  · rintro ⟨⟨fit, short⟩, rfl⟩
    exact ⟨_, _, rfl, _, _, ⟨fit, rfl⟩, _, _, ⟨short, rfl⟩, rfl, rfl⟩

theorem getMessage_eq_ok_iff {message : Message} :
    getMessage bytes = .ok (message, rest) ↔
      FitsMessage message ∧ bytes = putMessage message ++ rest := by
  rw [getMessage, bind_eq_ok]
  constructor
  · rintro ⟨kind, middle, gotKind, got⟩
    obtain ⟨-, rfl⟩ := getNat_eq_ok_iff.mp gotKind
    split at got
    · simp only [bind_eq_ok, pure_eq_ok, getAddress_eq_ok_iff, getCoin_eq_ok_iff] at got
      obtain ⟨source, _, rfl, target, _, rfl, amount, _, ⟨fit, rfl⟩, rfl, rfl⟩ := got
      exact ⟨fit, by simp [putMessage]⟩
    · simp only [bind_eq_ok, pure_eq_ok, getOffer_eq_ok_iff] at got
      obtain ⟨offer, _, ⟨fit, rfl⟩, rfl, rfl⟩ := got
      exact ⟨fit, by simp [putMessage]⟩
    · cases got
  · rintro ⟨fit, rfl⟩
    cases message with
    | transfer source target amount =>
      refine ⟨0, source.toBytes ++ (target.toBytes ++ (putCoin amount ++ rest)),
        getNat_eq_ok_iff.mpr ⟨by decide, by simp [putMessage]⟩, ?_⟩
      simp only [bind_eq_ok, pure_eq_ok, getAddress_eq_ok_iff, getCoin_eq_ok_iff]
      exact ⟨source, _, rfl, target, _, rfl, amount, rest, ⟨fit, rfl⟩, rfl, rfl⟩
    | bid offer =>
      refine ⟨1, putOffer offer ++ rest, getNat_eq_ok_iff.mpr ⟨by decide, by simp [putMessage]⟩, ?_⟩
      simp only [bind_eq_ok, pure_eq_ok, getOffer_eq_ok_iff]
      exact ⟨offer, rest, ⟨fit, rfl⟩, rfl, rfl⟩

theorem getTx_eq_ok_iff {tx : Tx} :
    getTx bytes = .ok (tx, rest) ↔ Fits tx ∧ bytes = encode tx ++ rest := by
  have messages : Exact FitsMessage putMessage getMessage := fun _ _ _ => getMessage_eq_ok_iff
  have addresses : Exact (fun _ => True) Address.toBytes getAddress := by
    intro bytes address rest
    rw [getAddress_eq_ok_iff, true_and]
  simp only [getTx, bind_eq_ok, pure_eq_ok, getList_eq_ok_iff messages, getList_eq_ok_iff addresses,
    getWord_eq_ok_iff, getCoin_eq_ok_iff, getBlob_eq_ok_iff, encode, List.append_assoc]
  constructor
  · rintro ⟨messages, _, ⟨fit, rfl⟩, signers, _, ⟨⟨few, -⟩, rfl⟩, sequence, _, rfl, fee, _,
      ⟨denom, rfl⟩, timeout, _, rfl, memo, _, ⟨brief, rfl⟩, rfl, rfl⟩
    exact ⟨⟨fit, few, denom, brief⟩, rfl⟩
  · rintro ⟨⟨fit, few, denom, brief⟩, rfl⟩
    exact ⟨_, _, ⟨fit, rfl⟩, _, _, ⟨⟨few, fun _ _ => trivial⟩, rfl⟩, _, _, rfl, _, _, ⟨denom, rfl⟩,
      _, _, rfl, _, _, ⟨brief, rfl⟩, rfl, rfl⟩

theorem decode_eq_ok_iff {tx : Tx} : decode bytes = .ok tx ↔ Fits tx ∧ encode tx = bytes := by
  have whole : decode bytes = .ok tx ↔ getTx bytes = .ok (tx, []) := by
    unfold decode
    rcases getTx bytes with error | ⟨found, _ | ⟨byte, left⟩⟩ <;> simp
  rw [whole, getTx_eq_ok_iff, List.append_nil, eq_comm (a := bytes)]

theorem encode_of_decode {tx : Tx} (decoded : decode bytes = .ok tx) : encode tx = bytes :=
  (decode_eq_ok_iff.mp decoded).2

end BlockBuilder.Ledger.Wire
