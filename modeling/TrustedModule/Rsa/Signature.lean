import TrustedModule.Rsa.PublicKey

/-!
# RSA signatures

Strict PKCS #1 v1.5 verification over SHA-1 digests: a signature has as many bytes as the modulus
and a value below it, and its power is exactly the one padded form of the digest.
-/

set_option autoImplicit false

namespace TrustedModule

namespace RsaPublicKey

/-- The power by repeated squaring, over the lowest `bits` bits of the exponent. -/
def powerOfBits (modulus : Nat) : (bits base exponent : Nat) → Nat
  | 0, _, _ => 1 % modulus
  | bits + 1, base, exponent =>
    let half := powerOfBits modulus bits (base * base % modulus) (exponent / 2)
    if exponent % 2 = 1 then base * half % modulus else half

/-- The remainder of a power. -/
def powerMod (modulus base exponent : Nat) : Nat :=
  powerOfBits modulus (exponent.log2 + 1) base exponent

/-- The bytes that name SHA-1 in front of a digest. -/
def sha1Identifier : Bytes :=
  [0x30, 0x21, 0x30, 0x09, 0x06, 0x05, 0x2B, 0x0E, 0x03, 0x02, 0x1A, 0x05, 0x00, 0x04, 0x14]

/-- The padded form of a digest in `size` bytes; it takes at least eight bytes of padding. -/
def paddedDigest? (size : Nat) (digest : Digest) : Option Bytes :=
  if size < 46 then none
  else
    some ([0x00, 0x01] ++ List.replicate (size - 38) 0xFF ++ [0x00] ++ sha1Identifier ++
      digest.bytes)

def verify (key : RsaPublicKey) (digest : Digest) (signature : Bytes) : Bool :=
  signature.length = key.size && ofBigEndian signature < key.modulus &&
    paddedDigest? key.size digest ==
      some (bigEndian key.size (powerMod key.modulus (ofBigEndian signature) key.exponent))

end RsaPublicKey

end TrustedModule
