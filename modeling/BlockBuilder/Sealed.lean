import BlockBuilder.Digest
import BlockBuilder.Transaction

namespace BlockBuilder

inductive CodecError where
  | unwritable (reason : String)
  | unreadable (reason : String)
  deriving DecidableEq, Inhabited

def CodecError.message : CodecError → String
  | .unwritable reason => s!"Failed to encode transaction: {reason}"
  | .unreadable reason => s!"Failed to decode transaction: {reason}"

structure Codec (T : Type) where
  encode : T → Except CodecError Bytes
  decode : Bytes → Except CodecError T

structure SealedTx (T : Type) where
  tx : T
  bytes : Bytes
  digest : Digest
  digest_eq : digest = sha256 bytes

namespace SealedTx

variable {T : Type}

def ofParts (tx : T) (bytes : Bytes) : SealedTx T := ⟨tx, bytes, sha256 bytes, rfl⟩

instance [Inhabited T] : Inhabited (SealedTx T) := ⟨ofParts default []⟩

def encode (codec : Codec T) (tx : T) : Except CodecError (SealedTx T) :=
  (codec.encode tx).map (ofParts tx)

def decode (codec : Codec T) (bytes : Bytes) : Except CodecError (SealedTx T) :=
  (codec.decode bytes).map (ofParts · bytes)

def size (sealedTx : SealedTx T) : Nat := sealedTx.bytes.length

@[simp] theorem ofParts_tx (tx : T) (bytes : Bytes) : (ofParts tx bytes).tx = tx := rfl

@[simp] theorem ofParts_bytes (tx : T) (bytes : Bytes) : (ofParts tx bytes).bytes = bytes := rfl

@[simp] theorem ofParts_digest (tx : T) (bytes : Bytes) :
    (ofParts tx bytes).digest = sha256 bytes := rfl

end SealedTx

end BlockBuilder
