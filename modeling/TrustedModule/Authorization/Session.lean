import TrustedModule.Authorization.Transcript
import TrustedModule.Structure.Authorization

/-!
# Authorization sessions

The caller's side of a session. An object-independent session (OIAP) is keyed with the usage secret
of whatever it authorizes; an object-specific one (OSAP) with a secret that both ends derive from
the entity's secret and the two nonces of the handshake. Every exchange uses up a nonce of each
side: the caller picks a new odd nonce, and the response brings the device's next even nonce. A
response that closes the session ends it for good.
-/

set_option autoImplicit false

namespace TrustedModule

inductive SessionKind where
  | oiap
  /-- The session serves one entity. -/
  | osap (entityType : UInt16) (entityValue : UInt32)
  deriving DecidableEq, Repr

structure Session where
  handle : Handle
  nonceEven : Digest
  nonceOdd : Digest
  /-- Whether the next command asks the device to keep the session open. -/
  continueAuthSession : Bool
  kind : SessionKind
  secret : Digest
  terminated : Bool
  deriving DecidableEq, Repr

/-- The secret that both ends of an object-specific session derive. -/
def sharedSecret (entityAuth nonceEvenOsap nonceOddOsap : Digest) : Digest :=
  hmacSha1 entityAuth.bytes (nonceEvenOsap.bytes ++ nonceOddOsap.bytes)

namespace Session

/-- A session as its handshake leaves it. -/
def established (handle : Handle) (nonceEven : Digest) (kind : SessionKind) (secret : Digest) :
    Session :=
  { handle, nonceEven, nonceOdd := .zero 20, continueAuthSession := true, kind, secret,
    terminated := false }

def ofOiap (response : OiapResponse) (usageAuth : Digest) : Session :=
  established response.authHandle response.nonceEven .oiap usageAuth

def ofOsap (command : OsapCommand) (response : OsapResponse) (entityAuth : Digest) : Session :=
  established response.authHandle response.nonceEven
    (.osap command.entityType command.entityValue)
    (sharedSecret entityAuth response.nonceEvenOsap command.nonceOddOsap)

def isActive (session : Session) : Bool := !session.terminated

def setContinue (keep : Bool) (session : Session) : Session :=
  { session with continueAuthSession := keep }

/-- Hides a new usage secret from everyone who does not know the session's; applied twice, it gives
the secret back. -/
def encryptAuth (session : Session) (newAuth : Digest) : Digest :=
  newAuth.xor (sha1 (session.secret.bytes ++ session.nonceEven.bytes))

/-- The block that authorizes a command with these parameters, under a fresh odd nonce. The nonce
is taken up even if the parameters turn out to have no encoding. -/
def authorize (ordinal : UInt32) (params : List Field) (nonceOdd : Digest) (session : Session) :
    Except Error CommandAuth × Session :=
  if session.terminated then
    (.error (.sessionTerminated session.handle), session)
  else
    let session := { session with nonceOdd }
    let block := (inParamDigest ordinal params).map fun digest =>
      { authHandle := session.handle
        nonceOdd := session.nonceOdd
        continueAuthSession := session.continueAuthSession
        auth := authDigest session.secret.bytes digest session.nonceEven session.nonceOdd
          session.continueAuthSession : CommandAuth }
    (block, session)

/-- Takes over the device's next nonce, and its word on whether the session goes on. -/
def roll (response : ResponseAuth) (session : Session) : Session :=
  { session with
    nonceEven := response.nonceEven
    terminated := session.terminated || !response.continueAuthSession }

/-- Rolls the session if the response proves knowledge of its secret for these parameters. -/
def checkResponse (ordinal : UInt32) (outParams : List Field) (response : ResponseAuth)
    (session : Session) : Except Error Unit × Session :=
  match outParamDigest 0 ordinal outParams with
  | .error error => (.error error, session)
  | .ok digest =>
    let expected := authDigest session.secret.bytes digest response.nonceEven session.nonceOdd
      response.continueAuthSession
    if expected = response.auth then
      (.ok (), session.roll response)
    else
      (.error .responseAuthMismatch, session)

end Session

def SessionKind.text : SessionKind → String
  | oiap => "Oiap"
  | osap entityType entityValue =>
    Text.record "Osap"
      [Text.part "entity_type" (toString entityType),
        Text.part "entity_value" (toString entityValue)]

/-- The readable form; it leaves the secret out. -/
def Session.text (session : Session) : String :=
  Text.record "AuthSession"
    [Text.part "handle" (toString session.handle),
      Text.part "nonce_even" (Text.bytes session.nonceEven.bytes),
      Text.part "nonce_odd" (Text.bytes session.nonceOdd.bytes),
      Text.part "continue_auth_session" (toString session.continueAuthSession),
      Text.part "kind" session.kind.text,
      Text.part "terminated" (toString session.terminated)]

end TrustedModule
