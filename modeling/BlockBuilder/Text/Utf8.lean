import BlockBuilder.Bytes

namespace BlockBuilder.Utf8

def encode (text : String) : Bytes := text.toByteArray.data.toList

def decode? (bytes : Bytes) : Option String := String.fromUTF8? bytes.toByteArray

/-- Where valid text ends and what is wrong there. -/
inductive Fault where
  | invalid (start count : Nat)
  | incomplete (start : Nat)
  deriving DecidableEq, Inhabited

def followers? (first : UInt8) : Option (List (UInt8 × UInt8)) :=
  let any : UInt8 × UInt8 := (0x80, 0xBF)
  if 0xC2 ≤ first ∧ first ≤ 0xDF then some [any]
  else if first = 0xE0 then some [(0xA0, 0xBF), any]
  else if first = 0xED then some [(0x80, 0x9F), any]
  else if 0xE1 ≤ first ∧ first ≤ 0xEF then some [any, any]
  else if first = 0xF0 then some [(0x90, 0xBF), any, any]
  else if 0xF1 ≤ first ∧ first ≤ 0xF3 then some [any, any, any]
  else if first = 0xF4 then some [(0x80, 0x8F), any, any]
  else none

-- The character begins at `start`, `seen` of its bytes have been read, and the listed ranges are to come.
def scan (start seen : Nat) : List (UInt8 × UInt8) → Bytes → Fault
  | _, [] => .incomplete start
  | [], byte :: rest =>
    if byte < 0x80 then scan (start + 1) 0 [] rest
    else
      match followers? byte with
      | some ranges => scan start 1 ranges rest
      | none => .invalid start 1
  | (low, high) :: ranges, byte :: rest =>
    if byte < low ∨ high < byte then .invalid start seen
    else if ranges.isEmpty then scan (start + seen + 1) 0 [] rest
    else scan start (seen + 1) ranges rest

def firstFault (bytes : Bytes) : Fault := scan 0 0 [] bytes

theorem decode?_encode (text : String) : decode? (encode text) = some text := by
  have bytes : (encode text).toByteArray = text.toByteArray := by
    apply ByteArray.ext
    simp [encode]
  unfold decode?
  rw [bytes, String.fromUTF8?, dif_pos text.isValidUTF8]
  rfl

theorem encode_of_decode? {bytes : Bytes} {text : String} (decoded : decode? bytes = some text) :
    encode text = bytes := by
  unfold decode? String.fromUTF8? at decoded
  split at decoded
  · cases decoded
    simp [encode, String.fromUTF8]
  · cases decoded

end BlockBuilder.Utf8
