import TrustedModule.Digest.Hmac
import TrustedModule.Wire.Field

/-!
# Authorization digests

Both ends of a session prove that they know its secret by a keyed digest over one transcript: the
digest of the parameters, the two nonces and the flag that keeps the session open. The parameter
digest of a command covers its ordinal; that of a response covers the return code in front of it.
Handles and authorization blocks are no parameters.
-/

set_option autoImplicit false

namespace TrustedModule

/-- What the digest of a command's parameters is taken over. -/
def commandParams (ordinal : UInt32) (params : Bytes) : Bytes :=
  bigEndian 4 ordinal.toNat ++ params

/-- What the digest of a response's parameters is taken over. -/
def responseParams (returnCode ordinal : UInt32) (params : Bytes) : Bytes :=
  bigEndian 4 returnCode.toNat ++ bigEndian 4 ordinal.toNat ++ params

def commandDigest (ordinal : UInt32) (params : Bytes) : Digest :=
  sha1 (commandParams ordinal params)

def responseDigest (returnCode ordinal : UInt32) (params : Bytes) : Digest :=
  sha1 (responseParams returnCode ordinal params)

/-- The digest of a command's parameters, given as fields. -/
def inParamDigest (ordinal : UInt32) (params : List Field) : Except Error Digest :=
  (Field.encode params).map (commandDigest ordinal)

/-- The digest of a response's parameters, given as fields. -/
def outParamDigest (returnCode ordinal : UInt32) (params : List Field) : Except Error Digest :=
  (Field.encode params).map (responseDigest returnCode ordinal)

/-- The 61 bytes that a session secret authenticates. -/
def transcript (paramDigest nonceEven nonceOdd : Digest) (continueAuthSession : Bool) : Bytes :=
  paramDigest.bytes ++ nonceEven.bytes ++ nonceOdd.bytes ++
    [if continueAuthSession then 1 else 0]

def authDigest (secret : Bytes) (paramDigest nonceEven nonceOdd : Digest)
    (continueAuthSession : Bool) : Digest :=
  hmacSha1 secret (transcript paramDigest nonceEven nonceOdd continueAuthSession)

@[simp] theorem length_transcript (paramDigest nonceEven nonceOdd : Digest)
    (continueAuthSession : Bool) :
    (transcript paramDigest nonceEven nonceOdd continueAuthSession).length = 61 := by
  simp [transcript]

end TrustedModule
