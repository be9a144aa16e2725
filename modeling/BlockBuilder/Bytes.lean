namespace BlockBuilder

abbrev Bytes := List UInt8

namespace Bytes

def hexDigit (value : Nat) : Char :=
  if value < 10 then Char.ofNat (48 + value) else Char.ofNat (87 + value)

def hexValue? (digit : Char) : Option Nat :=
  let code := digit.toNat
  if 48 ≤ code ∧ code ≤ 57 then some (code - 48)
  else if 97 ≤ code ∧ code ≤ 102 then some (code - 87)
  else if 65 ≤ code ∧ code ≤ 70 then some (code - 55)
  else none

def hexDigits : Bytes → List Char
  | [] => []
  | byte :: rest =>
    hexDigit (byte.toNat / 16) :: hexDigit (byte.toNat % 16) :: hexDigits rest

def hex (bytes : Bytes) : String := String.ofList (hexDigits bytes)

def ofHexDigits? : List Char → Option Bytes
  | [] => some []
  | high :: low :: rest => do
    let high ← hexValue? high
    let low ← hexValue? low
    let rest ← ofHexDigits? rest
    return UInt8.ofNat (16 * high + low) :: rest
  | [_] => none

def ofHex? (text : String) : Option Bytes := ofHexDigits? text.toList

def littleEndian : Nat → Nat → Bytes
  | 0, _ => []
  | width + 1, value => UInt8.ofNat value :: littleEndian width (value / 256)

def ofLittleEndian : Bytes → Nat
  | [] => 0
  | byte :: rest => byte.toNat + 256 * ofLittleEndian rest

def valueCount : Nat → Nat
  | 0 => 1
  | width + 1 => 256 * valueCount width

def bigEndian (width value : Nat) : Bytes := (littleEndian width value).reverse

def ofBigEndian (bytes : Bytes) : Nat := ofLittleEndian bytes.reverse

@[simp] theorem length_littleEndian (width value : Nat) :
    (littleEndian width value).length = width := by
  induction width generalizing value with
  | zero => rfl
  | succ width ih => simp [littleEndian, ih]

@[simp] theorem length_bigEndian (width value : Nat) :
    (bigEndian width value).length = width := by
  simp [bigEndian]

theorem ofLittleEndian_littleEndian {width value : Nat} (bound : value < valueCount width) :
    ofLittleEndian (littleEndian width value) = value := by
  induction width generalizing value with
  | zero =>
    simp only [valueCount] at bound
    simp only [littleEndian, ofLittleEndian]
    omega
  | succ width ih =>
    have quotient : value / 256 < valueCount width := Nat.div_lt_of_lt_mul bound
    simp only [littleEndian, ofLittleEndian, ih quotient, UInt8.toNat_ofNat']
    omega

theorem littleEndian_ofLittleEndian (bytes : Bytes) :
    littleEndian bytes.length (ofLittleEndian bytes) = bytes := by
  induction bytes with
  | nil => rfl
  | cons byte rest ih =>
    have small := byte.toNat_lt
    have quotient : (byte.toNat + 256 * ofLittleEndian rest) / 256 = ofLittleEndian rest := by
      omega
    have first : UInt8.ofNat (byte.toNat + 256 * ofLittleEndian rest) = byte := by
      apply UInt8.toNat_inj.mp
      rw [UInt8.toNat_ofNat']
      omega
    simp only [List.length_cons, littleEndian, ofLittleEndian, quotient, ih, first]

theorem ofLittleEndian_lt (bytes : Bytes) : ofLittleEndian bytes < valueCount bytes.length := by
  induction bytes with
  | nil => exact Nat.zero_lt_one
  | cons byte rest ih =>
    have small := byte.toNat_lt
    simp only [ofLittleEndian, List.length_cons, valueCount]
    omega

theorem ofBigEndian_bigEndian {width value : Nat} (bound : value < valueCount width) :
    ofBigEndian (bigEndian width value) = value := by
  simp [ofBigEndian, bigEndian, ofLittleEndian_littleEndian bound]

theorem bigEndian_ofBigEndian (bytes : Bytes) :
    bigEndian bytes.length (ofBigEndian bytes) = bytes := by
  have reversed := littleEndian_ofLittleEndian bytes.reverse
  rw [List.length_reverse] at reversed
  rw [bigEndian, ofBigEndian, reversed, List.reverse_reverse]

theorem ofBigEndian_lt (bytes : Bytes) : ofBigEndian bytes < valueCount bytes.length := by
  simpa [ofBigEndian] using ofLittleEndian_lt bytes.reverse

end Bytes

end BlockBuilder
