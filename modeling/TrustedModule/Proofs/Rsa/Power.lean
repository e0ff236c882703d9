import Mathlib.Algebra.Group.Nat.Defs
import TrustedModule.Rsa.Signature

/-!
# Repeated squaring

Repeated squaring over the bits of the exponent gives the remainder of the power.
-/

set_option autoImplicit false

namespace TrustedModule.RsaPublicKey

theorem powerOfBits_eq (modulus bits base exponent : Nat) (h : exponent < 2 ^ bits) :
    powerOfBits modulus bits base exponent = base ^ exponent % modulus := by
  induction bits generalizing base exponent with
  | zero =>
    have : exponent = 0 := by omega
    simp [powerOfBits, this]
  | succ bits ih =>
    have hsplit : exponent = 2 * (exponent / 2) + exponent % 2 := by omega
    have hpow : (base * base % modulus) ^ (exponent / 2) % modulus =
        base ^ (2 * (exponent / 2)) % modulus := by
      rw [← Nat.pow_mod, Nat.pow_mul, Nat.pow_two]
    rw [powerOfBits, ih _ _ (by omega), hpow]
    split
    · rename_i hodd
      rw [Nat.mul_mod, Nat.mod_mod, ← Nat.mul_mod, ← Nat.pow_succ']
      congr 2
      omega
    · rename_i heven
      congr 2
      omega

theorem powerMod_eq (modulus base exponent : Nat) :
    powerMod modulus base exponent = base ^ exponent % modulus :=
  powerOfBits_eq modulus _ base exponent Nat.lt_log2_self

end TrustedModule.RsaPublicKey
