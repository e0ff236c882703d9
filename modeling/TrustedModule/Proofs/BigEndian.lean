import Mathlib.Algebra.Group.Nat.Defs
import TrustedModule.Bytes

/-!
# Big-endian numbers

What a number of a fixed width keeps of the number that was written.
-/

set_option autoImplicit false

namespace TrustedModule

theorem ofBigEndian_bigEndian (width n : Nat) :
    ofBigEndian (bigEndian width n) = n % 256 ^ width := by
  induction width generalizing n with
  | zero => simp [bigEndian, ofBigEndian, Nat.mod_one]
  | succ width ih =>
    rw [bigEndian, ofBigEndian_append_singleton, ih, UInt8.toNat_ofNat']
    conv => rhs; rw [Nat.pow_succ, Nat.mul_comm, Nat.mod_mul]
    omega

theorem ofBigEndian_of_lt {width n : Nat} (h : n < 256 ^ width) :
    ofBigEndian (bigEndian width n) = n := by
  rw [ofBigEndian_bigEndian, Nat.mod_eq_of_lt h]

theorem ofBigEndian_toNat (value : UInt32) : ofBigEndian (bigEndian 4 value.toNat) = value.toNat :=
  ofBigEndian_of_lt (by have := value.toNat_lt; omega)

theorem ofBigEndian_lt (bytes : Bytes) : ofBigEndian bytes < 256 ^ bytes.length := by
  rw [← List.reverse_reverse bytes]
  induction bytes.reverse with
  | nil => simp [ofBigEndian]
  | cons byte rest ih =>
    rw [List.reverse_cons, ofBigEndian_append_singleton, List.length_append, Nat.pow_add]
    have := byte.toNat_lt
    simp only [List.length_cons, List.length_nil, Nat.zero_add, Nat.pow_one]
    omega

theorem bigEndian_mod (width n : Nat) : bigEndian width (n % 256 ^ width) = bigEndian width n := by
  have h := bigEndian_ofBigEndian (bigEndian width n)
  rwa [length_bigEndian, ofBigEndian_bigEndian] at h

theorem bigEndian_ofNat (n : Nat) : bigEndian 4 (UInt32.ofNat n).toNat = bigEndian 4 n := by
  rw [UInt32.toNat_ofNat']
  exact bigEndian_mod 4 n

/-! A number of a word's width is written with the bytes that it was read from. -/

theorem bigEndian_ofBigEndian_u16 {bytes : Bytes} (h : bytes.length = 2) :
    bigEndian 2 (UInt16.ofNat (ofBigEndian bytes)).toNat = bytes := by
  have hbound := ofBigEndian_lt bytes
  rw [h] at hbound
  rw [UInt16.toNat_ofNat_of_lt' hbound, ← h, bigEndian_ofBigEndian]

theorem bigEndian_ofBigEndian_u32 {bytes : Bytes} (h : bytes.length = 4) :
    bigEndian 4 (UInt32.ofNat (ofBigEndian bytes)).toNat = bytes := by
  rw [bigEndian_ofNat, ← h, bigEndian_ofBigEndian]

/-- Words that are written alike are the same. -/
theorem bigEndian_toNat_inj {word word' : UInt32} :
    bigEndian 4 word.toNat = bigEndian 4 word'.toNat ↔ word = word' := by
  constructor
  · intro h
    apply UInt32.toNat_inj.mp
    rw [← ofBigEndian_toNat word, h, ofBigEndian_toNat]
  · exact fun h => h ▸ rfl

theorem bigEndian_ne {count count' : Nat} (hlt : count < count') (hbound : count' < 0x100000000) :
    bigEndian 4 count ≠ bigEndian 4 count' := by
  intro heq
  have h := congrArg ofBigEndian heq
  rw [ofBigEndian_of_lt (by omega), ofBigEndian_of_lt (by omega)] at h
  omega

end TrustedModule
