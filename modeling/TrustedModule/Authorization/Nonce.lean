import TrustedModule.Digest.Sha1

/-!
# Nonces

A source of nonces hashes a seed that only its owner knows together with the number of the draw.
-/

set_option autoImplicit false

namespace TrustedModule

structure NonceSource where
  seed : Bytes
  drawn : Nat := 0
  deriving DecidableEq, Repr

/-- The next nonce, and the source after it. -/
def NonceSource.draw (source : NonceSource) : Digest × NonceSource :=
  (sha1 (source.seed ++ bigEndian 8 source.drawn), { source with drawn := source.drawn + 1 })

end TrustedModule
