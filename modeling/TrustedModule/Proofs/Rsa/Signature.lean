import TrustedModule.Proofs.BigEndian
import TrustedModule.Proofs.Rsa.Power

/-!
# What an RSA signature stands for

The verifier computes a power by repeated squaring and compares byte strings. What it accepts is
stated here as the standard does, with numbers: a signature is good for the one digest whose padded
form is its power.
-/

set_option autoImplicit false

namespace TrustedModule

theorem lt_byteWidth (n : Nat) : n < 256 ^ byteWidth n := by
  have hlog : n < 2 ^ (n.log2 + 1) := Nat.lt_log2_self
  have hbits : 2 ^ (n.log2 + 1) ≤ 2 ^ (8 * byteWidth n) := by
    apply Nat.pow_le_pow_right (by omega)
    unfold byteWidth
    omega
  have hbytes : 2 ^ (8 * byteWidth n) = 256 ^ byteWidth n := Nat.pow_mul 2 8 (byteWidth n)
  omega

namespace RsaPublicKey

variable {key : RsaPublicKey} {signature : Bytes} {digest digest' : Digest}

/-- The strict rules of PKCS #1 v1.5 for a signature of a digest. -/
structure Signs (key : RsaPublicKey) (signature : Bytes) (digest : Digest) : Prop where
  length_eq : signature.length = key.size
  lt_modulus : ofBigEndian signature < key.modulus
  power_eq : ∃ padded, paddedDigest? key.size digest = some padded ∧
    ofBigEndian signature ^ key.exponent % key.modulus = ofBigEndian padded

section Padding

variable {size : Nat} {padded : Bytes}

theorem length_paddedDigest (h : paddedDigest? size digest = some padded) :
    padded.length = size := by
  unfold paddedDigest? at h
  split at h
  · cases h
  · rename_i hsize
    cases h
    simp [sha1Identifier]
    omega

/-- The digest can be read off its padded form. -/
theorem paddedDigest_inj (h : paddedDigest? size digest = some padded)
    (h' : paddedDigest? size digest' = some padded) : digest = digest' := by
  unfold paddedDigest? at h h'
  split at h
  · cases h
  · rename_i hsize
    rw [if_neg hsize] at h'
    have happend := (Option.some.inj h).trans (Option.some.inj h').symm
    exact Block.ext (List.append_cancel_left happend)

end Padding

theorem verify_iff : key.verify digest signature = true ↔ key.Signs signature digest := by
  have hpower : ofBigEndian signature < key.modulus →
      ofBigEndian (bigEndian key.size (powerMod key.modulus (ofBigEndian signature) key.exponent)) =
        ofBigEndian signature ^ key.exponent % key.modulus := by
    intro hlt
    rw [powerMod_eq]
    apply ofBigEndian_of_lt
    calc ofBigEndian signature ^ key.exponent % key.modulus
        < key.modulus := Nat.mod_lt _ (by omega)
      _ < 256 ^ key.size := lt_byteWidth key.modulus
  unfold verify
  rw [Bool.and_eq_true, Bool.and_eq_true, decide_eq_true_eq, decide_eq_true_eq, beq_iff_eq]
  constructor
  · rintro ⟨⟨hlength, hlt⟩, hpadded⟩
    exact ⟨hlength, hlt, _, hpadded, (hpower hlt).symm⟩
  · rintro ⟨hlength, hlt, padded, hpadded, hvalue⟩
    refine ⟨⟨hlength, hlt⟩, ?_⟩
    rw [powerMod_eq, hvalue, hpadded]
    have hbytes := bigEndian_ofBigEndian padded
    rw [length_paddedDigest hpadded] at hbytes
    rw [hbytes]

/-- No signature is good for two digests. -/
theorem Signs.digest_unique (h : key.Signs signature digest) (h' : key.Signs signature digest') :
    digest = digest' := by
  obtain ⟨padded, hpadded, hvalue⟩ := h.power_eq
  obtain ⟨padded', hpadded', hvalue'⟩ := h'.power_eq
  have hsame : padded = padded' := by
    rw [← bigEndian_ofBigEndian padded, ← bigEndian_ofBigEndian padded', ← hvalue, ← hvalue',
      length_paddedDigest hpadded, length_paddedDigest hpadded']
  subst hsame
  exact paddedDigest_inj hpadded hpadded'

end RsaPublicKey

end TrustedModule
