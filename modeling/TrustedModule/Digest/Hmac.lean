import TrustedModule.Digest.Sha1

/-!
# HMAC-SHA1

A keyed hash: SHA-1 under the key combined with one pad, over SHA-1 under the key combined with
another. A key longer than one block is hashed first.
-/

set_option autoImplicit false

namespace TrustedModule

namespace Hmac

/-- The length of a SHA-1 block. -/
def blockSize : Nat := 64

/-- The key filled up with zeros to one block. -/
def blockKey (key : Bytes) : Bytes :=
  let key := if key.length > blockSize then (sha1 key).bytes else key
  key ++ List.replicate (blockSize - key.length) 0

/-- The block key with every byte combined with `pad`. -/
def padKey (pad : UInt8) (key : Bytes) : Bytes := (blockKey key).map (· ^^^ pad)

end Hmac

def hmacSha1 (key message : Bytes) : Digest :=
  sha1 (Hmac.padKey 0x5C key ++ (sha1 (Hmac.padKey 0x36 key ++ message)).bytes)

end TrustedModule
