import TrustedModule.Structure.Pcr

/-!
# Register selections as sets

A mask selects register `8 * i + j` by bit `j` of its byte `i`, the lowest bit being bit 0.
-/

set_option autoImplicit false

namespace TrustedModule

namespace PcrMask

def hasBit (byte : UInt8) (bit : Nat) : Bool := byte.toNat.testBit bit

def setBit (byte : UInt8) (bit : Nat) : UInt8 := byte ||| UInt8.ofNat (1 <<< bit)

/-- The numbers of the bits that are set, in ascending order, counted from `start`. -/
def setBits (start : Nat) : Bytes → List Nat
  | [] => []
  | byte :: rest =>
    ((List.range 8).filter (hasBit byte)).map (start + ·) ++ setBits (start + 8) rest

theorem hasBit_setBit (byte : UInt8) {bit : Nat} (h : bit < 8) (other : Nat) :
    hasBit (setBit byte bit) other = (hasBit byte other || decide (bit = other)) := by
  have hlt : 2 ^ bit < 2 ^ 8 := Nat.pow_lt_pow_right (by decide) h
  have hmask : (UInt8.ofNat (1 <<< bit)).toNat = 2 ^ bit := by
    rw [UInt8.toNat_ofNat', Nat.one_shiftLeft, Nat.mod_eq_of_lt hlt]
  rw [hasBit, setBit, UInt8.toNat_or, Nat.testBit_or, hmask, Nat.testBit_two_pow, hasBit]

end PcrMask

namespace PcrSelection

def isSelected (selection : PcrSelection) (index : UInt32) : Bool :=
  selection.mask[index.toNat / 8]?.any (PcrMask.hasBit · (index.toNat % 8))

/-- The selected registers in ascending order. Register numbers have 32 bits, so of a longer mask
only as many bytes count as its length has modulo 2 ^ 29. -/
def indices (selection : PcrSelection) : List UInt32 :=
  (PcrMask.setBits 0 (selection.mask.take (selection.mask.length % 0x20000000))).map UInt32.ofNat

def select (selection : PcrSelection) (index : UInt32) : Except Error PcrSelection :=
  if index.toNat / 8 < selection.mask.length then
    .ok ⟨selection.mask.modify (index.toNat / 8) (PcrMask.setBit · (index.toNat % 8))⟩
  else
    .error (.overflow (.pcrIndex index selection.mask.length))

/-- The selection of some of the 24 registers of a device. -/
def ofIndices (indices : List UInt32) : Except Error PcrSelection :=
  indices.foldlM select {}

end PcrSelection

end TrustedModule
