import BlockBuilder.Proofs.Ledger.Reading

namespace BlockBuilder.Ledger.Wire

variable {tx other : Tx} {bytes rest : Bytes}

theorem codec_decode (bytes : Bytes) :
    codec.decode bytes = (decode bytes).mapError fun error => .unreadable error.message := rfl

theorem codec_encode (tx : Tx) : codec.encode tx = .ok (encode tx) := rfl

theorem codec_decode_eq_ok_iff :
    codec.decode bytes = .ok tx ↔ Fits tx ∧ codec.encode tx = .ok bytes := by
  rw [codec_decode, codec_encode, mapError_eq_ok_iff, decode_eq_ok_iff, Except.ok.injEq]

theorem eq_of_beginning (fits : Fits tx) (fitsOther : Fits other) (begins : encode tx <+: encode other) :
    tx = other := by
  obtain ⟨rest, whole⟩ := begins
  have first : getTx (encode other) = .ok (tx, rest) := getTx_eq_ok_iff.mpr ⟨fits, whole.symm⟩
  have second : getTx (encode other) = .ok (other, []) :=
    getTx_eq_ok_iff.mpr ⟨fitsOther, (List.append_nil _).symm⟩
  rw [first] at second
  cases second
  rfl

theorem decode_encode_append (fits : Fits tx) (continued : rest ≠ []) :
    decode (encode tx ++ rest) = .error .trailing := by
  have read : getTx (encode tx ++ rest) = .ok (tx, rest) := getTx_eq_ok_iff.mpr ⟨fits, rfl⟩
  cases rest with
  | nil => exact absurd rfl continued
  | cons byte rest => rw [decode, read]

theorem exists_codec_error (formless : ∀ tx, Fits tx → encode tx ≠ bytes) :
    ∃ cause, codec.decode bytes = .error cause := by
  cases read : codec.decode bytes with
  | error cause => exact ⟨cause, rfl⟩
  | ok tx =>
    obtain ⟨fits, written⟩ := codec_decode_eq_ok_iff.mp read
    rw [codec_encode, Except.ok.injEq] at written
    exact absurd written (formless tx fits)

/-- Transactions that fit and bytes that can be read determine each other, no wire form begins
another, and bytes that are cut short, continued or no wire form at all are refused. -/
theorem codec_canonical :
    (∀ bytes tx, codec.decode bytes = .ok tx ↔ Fits tx ∧ codec.encode tx = .ok bytes) ∧
    (∀ tx other, Fits tx → Fits other → encode tx <+: encode other → tx = other) ∧
    (∀ tx bytes, Fits tx → bytes <+: encode tx → bytes ≠ encode tx →
      ∃ cause, codec.decode bytes = .error cause) ∧
    (∀ tx rest, Fits tx → rest ≠ [] →
      codec.decode (encode tx ++ rest) = .error (.unreadable WireError.trailing.message)) ∧
    ∀ bytes, (∀ tx, Fits tx → encode tx ≠ bytes) → ∃ cause, codec.decode bytes = .error cause := by
  refine ⟨fun _ _ => codec_decode_eq_ok_iff, fun _ _ => eq_of_beginning, ?_, ?_,
    fun _ => exists_codec_error⟩
  · intro tx bytes fits begins short
    apply exists_codec_error
    rintro other fitsOther rfl
    exact short (congrArg encode (eq_of_beginning fitsOther fits begins))
  · intro tx rest fits continued
    rw [codec_decode, decode_encode_append fits continued]
    rfl

def nested : Tx where
  messages :=
    [.transfer (.ofIndex 1) (.ofIndex 2) ⟨"é", 5⟩,
      .bid ⟨.ofIndex 1, ⟨denom, 7⟩, [encode (.transfer (.ofIndex 2) 0 1), []]⟩]
  signers := [.ofIndex 1, .ofIndex 2]
  sequence := 3
  fee := ⟨denom, 1⟩
  timeout := 9
  memo := [0xAB]

theorem codec_canonical_of_nested :
    Fits nested ∧ codec.decode (encode nested) = .ok nested ∧
      (∃ cause, codec.decode ((encode nested).take 100) = .error cause) ∧
      codec.decode (encode nested ++ [0]) =
        .error (.unreadable "Slice had bytes remaining after deserialization") := by
  have fits : Fits nested := by decide +kernel
  obtain ⟨reads, -, cut, continued, -⟩ := codec_canonical
  refine ⟨fits, (reads _ _).mpr ⟨fits, rfl⟩, ?_, continued _ _ fits (List.cons_ne_nil _ _)⟩
  apply cut nested _ fits (List.take_prefix ..)
  intro same
  have length := congrArg List.length same
  revert length
  decide +kernel

end BlockBuilder.Ledger.Wire
