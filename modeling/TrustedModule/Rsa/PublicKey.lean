import TrustedModule.Structure.Key

/-!
# RSA public keys

A public-key structure carries the modulus as its key and the exponent among its parameters. Not
every pair of numbers is accepted: the modulus has at most 4096 bits and is odd, the exponent is
odd, at least 2, at most 2 ^ 33 - 1 and below the modulus.
-/

set_option autoImplicit false

namespace TrustedModule

/-- The algorithm number of RSA. -/
def rsaAlgorithm : UInt32 := 1

structure RsaPublicKey where
  modulus : Nat
  exponent : Nat
  deriving DecidableEq, Repr

namespace RsaPublicKey

/-- The exponent of a key that carries none. -/
def defaultExponent : Nat := 65537

/-- Accepts a modulus and an exponent, or tells the first thing that is wrong with them. -/
def ofParts (modulus exponent : Nat) : Except KeyFault RsaPublicKey :=
  if 4096 ≤ modulus.log2 then .error .modulusTooLarge
  else if 0x10000000000000000 ≤ exponent then .error .exponentTooLarge
  else if modulus ≤ exponent ∨ modulus % 2 = 0 then .error .invalidModulus
  else if exponent % 2 = 0 then .error .invalidExponent
  else if exponent < 2 then .error .exponentTooSmall
  else if 0x200000000 ≤ exponent then .error .exponentTooLarge
  else .ok ⟨modulus, exponent⟩

/-- The length of the modulus and of every signature, in bytes. -/
def size (key : RsaPublicKey) : Nat := byteWidth key.modulus

def modulusBytes (key : RsaPublicKey) : Bytes := bigEndian (byteWidth key.modulus) key.modulus

def exponentBytes (key : RsaPublicKey) : Bytes := bigEndian (byteWidth key.exponent) key.exponent

end RsaPublicKey

namespace PubKey

/-- The RSA parameters, if the key is one for RSA. -/
def rsaParams (pub : PubKey) : Except Error RsaKeyParms :=
  if pub.algorithmParams.algorithmId = rsaAlgorithm then
    Wire.decode RsaKeyParms pub.algorithmParams.params
  else
    .error (.invalidKey (.algorithm pub.algorithmParams.algorithmId))

def toRsaPublicKey (pub : PubKey) : Except Error RsaPublicKey := do
  let params ← pub.rsaParams
  let exponent :=
    if params.exponent.isEmpty then RsaPublicKey.defaultExponent else ofBigEndian params.exponent
  (RsaPublicKey.ofParts (ofBigEndian pub.key) exponent).mapError .invalidKey

end PubKey

end TrustedModule
