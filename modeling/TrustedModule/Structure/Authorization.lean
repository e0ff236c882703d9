import TrustedModule.Command
import TrustedModule.Wire.Layout

/-!
# Authorization structures

The blocks that authorize a command and its response, and the messages that open a session.
-/

set_option autoImplicit false

namespace TrustedModule

/-- The block that a caller appends to a command. -/
structure CommandAuth where
  authHandle : Handle := 0
  nonceOdd : Digest := default
  continueAuthSession : Bool := false
  auth : Digest := default
  deriving DecidableEq, Repr, Inhabited

instance : Wire CommandAuth where
  layout :=
    .record "CommandAuth" <| .field "auth_handle" true .u32 <|
      .field "nonce_odd" true (.block 20) <| .field "continue_auth_session" true .flag <|
      .field "auth" false (.block 20) .done
  toValue block := (block.authHandle, block.nonceOdd, block.continueAuthSession, block.auth, ())
  ofValue
    | (authHandle, nonceOdd, continueAuthSession, auth, ()) =>
      { authHandle, nonceOdd, continueAuthSession, auth }

/-- The block that the device appends to a response. -/
structure ResponseAuth where
  nonceEven : Digest := default
  continueAuthSession : Bool := false
  auth : Digest := default
  deriving DecidableEq, Repr, Inhabited

instance : Wire ResponseAuth where
  layout :=
    .record "ResponseAuth" <| .field "nonce_even" true (.block 20) <|
      .field "continue_auth_session" true .flag <| .field "auth" true (.block 20) .done
  toValue block := (block.nonceEven, block.continueAuthSession, block.auth, ())
  ofValue
    | (nonceEven, continueAuthSession, auth, ()) => { nonceEven, continueAuthSession, auth }

/-- The lengths of the two blocks. -/
def CommandAuth.wireLength : Nat := 45

def ResponseAuth.wireLength : Nat := 41

structure OiapResponse where
  authHandle : Handle := 0
  nonceEven : Digest := default
  deriving DecidableEq, Repr, Inhabited

instance : Wire OiapResponse where
  layout :=
    .record "OiapResponse" <| .field "auth_handle" true .u32 <|
      .field "nonce_even" true (.block 20) .done
  toValue response := (response.authHandle, response.nonceEven, ())
  ofValue | (authHandle, nonceEven, ()) => { authHandle, nonceEven }

structure OsapCommand where
  entityType : UInt16 := 0
  entityValue : UInt32 := 0
  nonceOddOsap : Digest := default
  deriving DecidableEq, Repr, Inhabited

instance : Wire OsapCommand where
  layout :=
    .record "OsapCommand" <| .field "entity_type" true .u16 <| .field "entity_value" true .u32 <|
      .field "nonce_odd_osap" true (.block 20) .done
  toValue command := (command.entityType, command.entityValue, command.nonceOddOsap, ())
  ofValue
    | (entityType, entityValue, nonceOddOsap, ()) => { entityType, entityValue, nonceOddOsap }

structure OsapResponse where
  authHandle : Handle := 0
  nonceEven : Digest := default
  nonceEvenOsap : Digest := default
  deriving DecidableEq, Repr, Inhabited

instance : Wire OsapResponse where
  layout :=
    .record "OsapResponse" <| .field "auth_handle" true .u32 <|
      .field "nonce_even" true (.block 20) <| .field "nonce_even_osap" true (.block 20) .done
  toValue response := (response.authHandle, response.nonceEven, response.nonceEvenOsap, ())
  ofValue | (authHandle, nonceEven, nonceEvenOsap, ()) => { authHandle, nonceEven, nonceEvenOsap }

end TrustedModule
