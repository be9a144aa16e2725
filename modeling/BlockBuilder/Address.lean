import Std.Data.TreeMap
import BlockBuilder.Bytes

namespace BlockBuilder

structure Address where
  value : BitVec 160
  deriving DecidableEq, Hashable, Inhabited

namespace Address

instance : Ord Address := ⟨compareOn Address.value⟩

instance : Std.TransOrd Address :=
  inferInstanceAs (Std.TransCmp (compareOn Address.value))

instance : Std.LawfulEqOrd Address where
  compare_self := by
    intro address
    exact Std.ReflOrd.compare_self
  eq_of_compare := by
    intro left right same
    have values : compare left.value right.value = .eq := same
    have equal := Std.LawfulEqOrd.eq_of_compare values
    cases left
    cases right
    simp_all

def width : Nat := 20

def ofIndex (index : UInt64) : Address := ⟨BitVec.ofNat 160 index.toNat⟩

def toBytes (address : Address) : Bytes := Bytes.bigEndian width address.value.toNat

def ofBytes (bytes : Bytes) : Address := ⟨BitVec.ofNat 160 (Bytes.ofBigEndian bytes)⟩

instance : ToString Address := ⟨fun address => address.toBytes.hex⟩

def labelled (address : Address) : String := s!"Address({address})"

@[simp] theorem length_toBytes (address : Address) : address.toBytes.length = width := by
  simp [toBytes]

@[simp] theorem ofBytes_toBytes (address : Address) : ofBytes address.toBytes = address := by
  have bound : address.value.toNat < Bytes.valueCount width :=
    Nat.lt_of_lt_of_eq address.value.isLt (by decide)
  simp [ofBytes, toBytes, Bytes.ofBigEndian_bigEndian bound]

theorem toBytes_ofBytes {bytes : Bytes} (length : bytes.length = width) :
    (ofBytes bytes).toBytes = bytes := by
  have bound := Bytes.ofBigEndian_lt bytes
  rw [length] at bound
  have small : Bytes.ofBigEndian bytes % 2 ^ 160 = Bytes.ofBigEndian bytes :=
    Nat.mod_eq_of_lt (Nat.lt_of_lt_of_eq bound (by decide))
  rw [ofBytes, toBytes, BitVec.toNat_ofNat, small, ← length, Bytes.bigEndian_ofBigEndian]

end Address

end BlockBuilder
