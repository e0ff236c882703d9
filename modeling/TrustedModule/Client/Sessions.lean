import TrustedModule.Authorization.Session
import TrustedModule.Client.Commands

/-!
# Opening sessions

A session is opened on the device and then set up on the caller's side from the handshake.
-/

set_option autoImplicit false

namespace TrustedModule.Client

variable {σ : Type} [Device σ]

/-- Opens an object-independent session that authorizes with `usageAuth`. -/
def startOiap (usageAuth : Digest) : Exchange σ Session :=
  return Session.ofOiap (← oiap) usageAuth

/-- Opens an object-specific session; the command holds the entity and a fresh odd nonce. -/
def startOsap (command : OsapCommand) (entityAuth : Digest) : Exchange σ Session :=
  return Session.ofOsap command (← osap command) entityAuth

end TrustedModule.Client
