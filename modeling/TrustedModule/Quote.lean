import TrustedModule.Command
import TrustedModule.Digest.Sha1
import TrustedModule.Rsa.Signature
import TrustedModule.Structure.Pcr
import TrustedModule.Structure.Version

/-!
# Quote signatures

A quote signs the caller's external data, the register information and the version blob, run
together behind a fixed head.
-/

set_option autoImplicit false

namespace TrustedModule

/-- The tag and the name that begin every signed quote. -/
def quoteHead : Bytes := bigEndian 2 Tag.quoteInfo2.toNat ++ [0x51, 0x55, 0x54, 0x32]

/-- What a quote signs. -/
def quoteMessage (externalData : Digest) (info : PcrInfoShort) (capBytes : Bytes) :
    Except Error Bytes :=
  (Wire.encode info).map fun encoded => quoteHead ++ externalData.bytes ++ encoded ++ capBytes

/-- Whether the signature of a quote is good; `capBytes` is the version blob as the device sent it,
empty when none was asked for. -/
def verifyQuote2 (pub : PubKey) (externalData : Digest) (info : PcrInfoShort) (capBytes : Bytes)
    (signature : Bytes) : Except Error Bool := do
  let message ← quoteMessage externalData info capBytes
  let key ← pub.toRsaPublicKey
  return key.verify (sha1 message) signature

end TrustedModule
