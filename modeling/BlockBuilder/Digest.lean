import BlockBuilder.Bytes

namespace BlockBuilder

structure Digest where
  value : BitVec 256
  deriving DecidableEq, Hashable, Inhabited

namespace Digest

def toBytes (digest : Digest) : Bytes := Bytes.bigEndian 32 digest.value.toNat

def ofBytes (bytes : Bytes) : Digest := ⟨BitVec.ofNat 256 (Bytes.ofBigEndian bytes)⟩

instance : ToString Digest := ⟨fun digest => digest.toBytes.hex⟩

def labelled (digest : Digest) : String := s!"TxHash({digest})"

end Digest

namespace Sha256

structure State where
  a : UInt32
  b : UInt32
  c : UInt32
  d : UInt32
  e : UInt32
  f : UInt32
  g : UInt32
  h : UInt32

def initial : State :=
  ⟨0x6a09e667, 0xbb67ae85, 0x3c6ef372, 0xa54ff53a, 0x510e527f, 0x9b05688c, 0x1f83d9ab, 0x5be0cd19⟩

def constants : List UInt32 := [
  0x428a2f98, 0x71374491, 0xb5c0fbcf, 0xe9b5dba5, 0x3956c25b, 0x59f111f1, 0x923f82a4, 0xab1c5ed5,
  0xd807aa98, 0x12835b01, 0x243185be, 0x550c7dc3, 0x72be5d74, 0x80deb1fe, 0x9bdc06a7, 0xc19bf174,
  0xe49b69c1, 0xefbe4786, 0x0fc19dc6, 0x240ca1cc, 0x2de92c6f, 0x4a7484aa, 0x5cb0a9dc, 0x76f988da,
  0x983e5152, 0xa831c66d, 0xb00327c8, 0xbf597fc7, 0xc6e00bf3, 0xd5a79147, 0x06ca6351, 0x14292967,
  0x27b70a85, 0x2e1b2138, 0x4d2c6dfc, 0x53380d13, 0x650a7354, 0x766a0abb, 0x81c2c92e, 0x92722c85,
  0xa2bfe8a1, 0xa81a664b, 0xc24b8b70, 0xc76c51a3, 0xd192e819, 0xd6990624, 0xf40e3585, 0x106aa070,
  0x19a4c116, 0x1e376c08, 0x2748774c, 0x34b0bcb5, 0x391c0cb3, 0x4ed8aa4a, 0x5b9cca4f, 0x682e6ff3,
  0x748f82ee, 0x78a5636f, 0x84c87814, 0x8cc70208, 0x90befffa, 0xa4506ceb, 0xbef9a3f7, 0xc67178f2]

def rotate (word : UInt32) (count : UInt32) : UInt32 :=
  (word >>> count) ||| (word <<< (32 - count))

/-- The message, a one bit, zeros up to the last eight bytes of a block, and the message's length
in bits. -/
def pad (message : Bytes) : Bytes :=
  message ++ 0x80 :: List.replicate ((119 - message.length % 64) % 64) 0 ++
    Bytes.bigEndian 8 (8 * message.length)

def words : Bytes → List UInt32
  | a :: b :: c :: d :: rest =>
    (a.toUInt32 <<< 24 ||| b.toUInt32 <<< 16 ||| c.toUInt32 <<< 8 ||| d.toUInt32) :: words rest
  | _ => []

def extend (schedule : Array UInt32) : Array UInt32 :=
  let word (back : Nat) := schedule.getD (schedule.size - back) 0
  let low := rotate (word 15) 7 ^^^ rotate (word 15) 18 ^^^ (word 15 >>> 3)
  let high := rotate (word 2) 17 ^^^ rotate (word 2) 19 ^^^ (word 2 >>> 10)
  schedule.push (word 16 + low + word 7 + high)

def schedule (block : List UInt32) : List UInt32 :=
  ((List.range 48).foldl (fun words _ => extend words) block.toArray).toList

def round (state : State) (word constant : UInt32) : State :=
  let ⟨a, b, c, d, e, f, g, h⟩ := state
  let upper := h + (rotate e 6 ^^^ rotate e 11 ^^^ rotate e 25) +
    ((e &&& f) ^^^ (~~~e &&& g)) + constant + word
  let lower := (rotate a 2 ^^^ rotate a 13 ^^^ rotate a 22) +
    ((a &&& b) ^^^ (a &&& c) ^^^ (b &&& c))
  ⟨upper + lower, a, b, c, d + upper, e, f, g⟩

def compress (state : State) (block : List UInt32) : State :=
  let mixed := ((schedule block).zip constants).foldl (fun s (word, constant) => round s word constant)
    state
  ⟨state.a + mixed.a, state.b + mixed.b, state.c + mixed.c, state.d + mixed.d,
    state.e + mixed.e, state.f + mixed.f, state.g + mixed.g, state.h + mixed.h⟩

def absorb : Nat → State → List UInt32 → State
  | 0, state, _ => state
  | blocks + 1, state, message => absorb blocks (compress state (message.take 16)) (message.drop 16)

def State.toBitVec (state : State) : BitVec 256 :=
  [state.a, state.b, state.c, state.d, state.e, state.f, state.g, state.h].foldl
    (fun value word => value <<< 32 ||| word.toBitVec.setWidth 256) 0

end Sha256

def sha256 (message : Bytes) : Digest :=
  let padded := Sha256.pad message
  ⟨(Sha256.absorb (padded.length / 64) Sha256.initial (Sha256.words padded)).toBitVec⟩

end BlockBuilder
