/-!
# Byte strings

Byte strings, their raw order, and the big-endian numbers written in them.
-/

namespace Cbor

/-- A byte string; the order is the raw one: unsigned bytes, a proper initial part first. -/
abbrev Bytes := List UInt8

namespace Bytes

/-- The big-endian number of the bytes, of which the low 64 bits are kept. -/
def toUInt64 (bytes : Bytes) : UInt64 :=
  bytes.foldl (fun number byte => number * 256 + byte.toUInt64) 0

def toNat (bytes : Bytes) : Nat :=
  bytes.foldl (fun number byte => number * 256 + byte.toNat) 0

def ofNat : (width : Nat) → Nat → Bytes
  | 0, _ => []
  | width + 1, number => ofNat width (number / 256) ++ [UInt8.ofNat number]

@[simp] theorem toNat_append_singleton (bytes : Bytes) (byte : UInt8) :
    toNat (bytes ++ [byte]) = toNat bytes * 256 + byte.toNat := by
  simp [toNat]

@[simp] theorem toUInt64_append_singleton (bytes : Bytes) (byte : UInt8) :
    toUInt64 (bytes ++ [byte]) = toUInt64 bytes * 256 + byte.toUInt64 := by
  simp [toUInt64]

@[simp] theorem length_ofNat (width number : Nat) : (ofNat width number).length = width := by
  induction width generalizing number with
  | zero => rfl
  | succ width ih => simp [ofNat, ih]

end Bytes

end Cbor
