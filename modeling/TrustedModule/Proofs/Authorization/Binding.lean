import TrustedModule.Authorization.Session
import TrustedModule.Proofs.BigEndian

/-!
# What an authorization digest binds

The keyed digest of a block is taken over a transcript, and the parameter digest in it over the
ordinal and the parameters. Both byte strings can be taken apart again. So two blocks under one
secret that carry the same digest stand for the same exchange, or they show two different messages
with one hash. The return code in front of a response's ordinal sets responses apart from commands.
-/

set_option autoImplicit false

namespace TrustedModule

/-! ## Hashed messages -/

section Messages

variable {ordinal ordinal' : UInt32} {params params' : Bytes}

theorem transcript_inj {paramDigest paramDigest' nonceEven nonceEven' nonceOdd nonceOdd' : Digest}
    {keep keep' : Bool}
    (h : transcript paramDigest nonceEven nonceOdd keep =
      transcript paramDigest' nonceEven' nonceOdd' keep') :
    paramDigest = paramDigest' ∧ nonceEven = nonceEven' ∧ nonceOdd = nonceOdd' ∧ keep = keep' := by
  obtain ⟨h, hflag⟩ := List.append_inj h (by simp)
  obtain ⟨h, hodd⟩ := List.append_inj h (by simp)
  obtain ⟨hparams, heven⟩ := List.append_inj h (by simp)
  refine ⟨Block.ext hparams, Block.ext heven, Block.ext hodd, ?_⟩
  cases keep <;> cases keep' <;> simp at hflag ⊢

theorem commandParams_inj (h : commandParams ordinal params = commandParams ordinal' params') :
    ordinal = ordinal' ∧ params = params' := by
  obtain ⟨hordinal, hparams⟩ := List.append_inj h (by simp)
  exact ⟨bigEndian_toNat_inj.mp hordinal, hparams⟩

theorem responseParams_inj {returnCode returnCode' : UInt32}
    (h : responseParams returnCode ordinal params = responseParams returnCode' ordinal' params') :
    returnCode = returnCode' ∧ ordinal = ordinal' ∧ params = params' := by
  obtain ⟨h, hparams⟩ := List.append_inj h (by simp)
  obtain ⟨hcode, hordinal⟩ := List.append_inj h (by simp)
  exact ⟨bigEndian_toNat_inj.mp hcode, bigEndian_toNat_inj.mp hordinal, hparams⟩

/-- The first word is the ordinal on one side and the return code on the other. -/
theorem commandParams_ne_responseParams {returnCode : UInt32} (h : ordinal ≠ returnCode) :
    commandParams ordinal params ≠ responseParams returnCode ordinal' params' := by
  intro heq
  apply h
  unfold commandParams responseParams at heq
  rw [List.append_assoc] at heq
  exact bigEndian_toNat_inj.mp (List.append_inj_left heq (by simp))

end Messages

/-- Two different messages with one hash. -/
def Collision (hash : Bytes → Digest) (message message' : Bytes) : Prop :=
  message ≠ message' ∧ hash message = hash message'

/-- Digests that agree were taken over the same things, but for a collision of either hash. -/
theorem authDigest_inj_or_collision {secret : Bytes} {hashed hashed' : Bytes}
    {nonceEven nonceEven' nonceOdd nonceOdd' : Digest} {keep keep' : Bool}
    (h : authDigest secret (sha1 hashed) nonceEven nonceOdd keep =
      authDigest secret (sha1 hashed') nonceEven' nonceOdd' keep') :
    (hashed = hashed' ∧ nonceEven = nonceEven' ∧ nonceOdd = nonceOdd' ∧ keep = keep') ∨
      Collision (hmacSha1 secret) (transcript (sha1 hashed) nonceEven nonceOdd keep)
        (transcript (sha1 hashed') nonceEven' nonceOdd' keep') ∨
      Collision sha1 hashed hashed' := by
  by_cases hmessage : transcript (sha1 hashed) nonceEven nonceOdd keep =
      transcript (sha1 hashed') nonceEven' nonceOdd' keep'
  · obtain ⟨hdigest, hrest⟩ := transcript_inj hmessage
    by_cases hhashed : hashed = hashed'
    · exact .inl ⟨hhashed, hrest⟩
    · exact .inr (.inr ⟨hhashed, hdigest⟩)
  · exact .inr (.inl ⟨hmessage, h⟩)

/-! ## Blocks of a session -/

namespace Session

/-- The block that a session makes for encoded parameters. -/
def block (ordinal : UInt32) (params : Bytes) (nonceOdd : Digest) (session : Session) :
    CommandAuth :=
  { authHandle := session.handle
    nonceOdd
    continueAuthSession := session.continueAuthSession
    auth := authDigest session.secret.bytes (commandDigest ordinal params) session.nonceEven
      nonceOdd session.continueAuthSession }

/-- A session that is alive makes a block of parameters that have an encoding. -/
theorem authorize_of_encode {session : Session} {fields : List Field} {params : Bytes}
    (halive : session.terminated = false) (hparams : Field.encode fields = .ok params)
    (ordinal : UInt32) (nonceOdd : Digest) :
    session.authorize ordinal fields nonceOdd =
      (.ok (session.block ordinal params nonceOdd), { session with nonceOdd }) := by
  unfold authorize inParamDigest
  rw [halive, hparams]
  rfl

theorem authorize_eq_block {session after : Session} {ordinal : UInt32} {fields : List Field}
    {nonceOdd : Digest} {block : CommandAuth}
    (h : session.authorize ordinal fields nonceOdd = (.ok block, after)) :
    ∃ params, Field.encode fields = .ok params ∧ block = session.block ordinal params nonceOdd := by
  unfold authorize at h
  split at h
  · cases h
  · obtain ⟨hblock, _⟩ := Prod.mk.inj h
    unfold inParamDigest at hblock
    cases hencode : Field.encode fields with
    | error error =>
      rw [hencode] at hblock
      cases hblock
    | ok params =>
      rw [hencode] at hblock
      cases hblock
      exact ⟨params, rfl, rfl⟩

theorem authorize_eq_ok {session after : Session} {ordinal : UInt32} {fields : List Field}
    {nonceOdd : Digest} {block : CommandAuth}
    (h : session.authorize ordinal fields nonceOdd = (.ok block, after)) :
    ∃ params, Field.encode fields = .ok params ∧
      block.auth = authDigest session.secret.bytes (commandDigest ordinal params) session.nonceEven
        nonceOdd session.continueAuthSession := by
  obtain ⟨params, hencode, rfl⟩ := authorize_eq_block h
  exact ⟨params, hencode, rfl⟩

/-- A response over parameters that have an encoding is judged by its digest alone. -/
theorem checkResponse_of_encode {session : Session} {fields : List Field} {params : Bytes}
    (h : Field.encode fields = .ok params) (ordinal : UInt32) (response : ResponseAuth) :
    session.checkResponse ordinal fields response =
      if authDigest session.secret.bytes (responseDigest 0 ordinal params) response.nonceEven
          session.nonceOdd response.continueAuthSession = response.auth then
        (.ok (), session.roll response)
      else
        (.error .responseAuthMismatch, session) := by
  unfold checkResponse outParamDigest
  rw [h]
  rfl

/-- A response is refused and the session stays as it is, or its digest is right and the session
rolls. -/
theorem checkResponse_cases (session : Session) (ordinal : UInt32) (fields : List Field)
    (response : ResponseAuth) :
    (∃ error, session.checkResponse ordinal fields response = (.error error, session)) ∨
      ∃ params, Field.encode fields = .ok params ∧
        response.auth = authDigest session.secret.bytes (responseDigest 0 ordinal params)
          response.nonceEven session.nonceOdd response.continueAuthSession ∧
        session.checkResponse ordinal fields response = (.ok (), session.roll response) := by
  cases hencode : Field.encode fields with
  | error error =>
    unfold checkResponse outParamDigest
    rw [hencode]
    exact .inl ⟨error, rfl⟩
  | ok params =>
    rw [checkResponse_of_encode hencode]
    split
    · rename_i hdigest
      exact .inr ⟨params, rfl, hdigest.symm, rfl⟩
    · exact .inl ⟨_, rfl⟩

end Session

/-- All that the digest of a block vouches for. -/
@[ext] structure Vouched where
  ordinal : UInt32
  params : Bytes
  nonceEven : Digest
  nonceOdd : Digest
  keep : Bool
  deriving DecidableEq

/-- A command that a session with this secret authorized. -/
structure Authorization (secret : Digest) where
  session : Session
  ordinal : UInt32
  fields : List Field
  nonceOdd : Digest
  block : CommandAuth
  after : Session
  secret_eq : session.secret = secret
  authorize_eq : session.authorize ordinal fields nonceOdd = (.ok block, after)

/-- A response that a session with this secret has to check. -/
structure Check (secret : Digest) where
  session : Session
  ordinal : UInt32
  fields : List Field
  response : ResponseAuth
  secret_eq : session.secret = secret

variable {secret : Digest}

namespace Authorization

def params (command : Authorization secret) : Bytes :=
  (Field.encode command.fields).toOption.getD []

def vouched (command : Authorization secret) : Vouched :=
  { ordinal := command.ordinal
    params := command.params
    nonceEven := command.session.nonceEven
    nonceOdd := command.nonceOdd
    keep := command.session.continueAuthSession }

/-- What the parameter digest is taken over. -/
def hashed (command : Authorization secret) : Bytes :=
  commandParams command.ordinal command.params

/-- The 61 bytes that the keyed digest is taken over. -/
def message (command : Authorization secret) : Bytes :=
  transcript (sha1 command.hashed) command.session.nonceEven command.nonceOdd
    command.session.continueAuthSession

theorem auth_eq (command : Authorization secret) :
    command.block.auth = authDigest secret.bytes (sha1 command.hashed) command.session.nonceEven
      command.nonceOdd command.session.continueAuthSession := by
  obtain ⟨params, hencode, hauth⟩ := Session.authorize_eq_ok command.authorize_eq
  have hparams : command.params = params := by simp [Authorization.params, hencode, Except.toOption]
  rw [hauth, command.secret_eq, hashed, hparams]
  rfl

end Authorization

namespace Check

def params (check : Check secret) : Bytes :=
  (Field.encode check.fields).toOption.getD []

def vouched (check : Check secret) : Vouched :=
  { ordinal := check.ordinal
    params := check.params
    nonceEven := check.response.nonceEven
    nonceOdd := check.session.nonceOdd
    keep := check.response.continueAuthSession }

def hashed (check : Check secret) : Bytes :=
  responseParams 0 check.ordinal check.params

def message (check : Check secret) : Bytes :=
  transcript (sha1 check.hashed) check.response.nonceEven check.session.nonceOdd
    check.response.continueAuthSession

def Accepted (check : Check secret) : Prop :=
  ∃ after, check.session.checkResponse check.ordinal check.fields check.response = (.ok (), after)

/-- The session does not believe the response, and stays as it is. -/
def Refused (check : Check secret) : Prop :=
  ∃ error, check.session.checkResponse check.ordinal check.fields check.response =
    (.error error, check.session)

theorem refused_or_auth_eq (check : Check secret) :
    check.Refused ∨ check.response.auth = authDigest secret.bytes (sha1 check.hashed)
      check.response.nonceEven check.session.nonceOdd check.response.continueAuthSession := by
  rcases check.session.checkResponse_cases check.ordinal check.fields check.response with
    hrefused | ⟨params, hencode, hauth, _⟩
  · exact .inl hrefused
  · right
    have hparams : check.params = params := by simp [Check.params, hencode, Except.toOption]
    rw [hauth, check.secret_eq, hashed, hparams]
    rfl

theorem Accepted.auth_eq {check : Check secret} (h : check.Accepted) :
    check.response.auth = authDigest secret.bytes (sha1 check.hashed) check.response.nonceEven
      check.session.nonceOdd check.response.continueAuthSession := by
  rcases check.refused_or_auth_eq with ⟨error, hrefused⟩ | hauth
  · obtain ⟨after, haccepted⟩ := h
    rw [hrefused] at haccepted
    cases haccepted
  · exact hauth

end Check

/-- Of two commands with one digest, and of two accepted responses with one digest, all that was
hashed is the same, but for a collision of the messages at hand. A response that carries the digest
of a command is refused, but for such a collision. -/
theorem digests_bind_exchange (secret : Digest) :
    (∀ command command' : Authorization secret, command.block.auth = command'.block.auth →
      command.vouched = command'.vouched ∨
        Collision (hmacSha1 secret.bytes) command.message command'.message ∨
        Collision sha1 command.hashed command'.hashed) ∧
    (∀ check check' : Check secret, check.Accepted → check'.Accepted →
      check.response.auth = check'.response.auth →
      check.vouched = check'.vouched ∨
        Collision (hmacSha1 secret.bytes) check.message check'.message ∨
        Collision sha1 check.hashed check'.hashed) ∧
    (∀ (command : Authorization secret) (check : Check secret), command.ordinal ≠ 0 →
      check.response.auth = command.block.auth →
      check.Refused ∨
        Collision (hmacSha1 secret.bytes) command.message check.message ∨
        Collision sha1 command.hashed check.hashed) := by
  refine ⟨?_, ?_, ?_⟩
  · intro command command' hauth
    rw [command.auth_eq, command'.auth_eq] at hauth
    rcases authDigest_inj_or_collision hauth with ⟨hhashed, heven, hodd, hkeep⟩ | hcollision
    · obtain ⟨hordinal, hparams⟩ := commandParams_inj hhashed
      exact .inl (Vouched.ext hordinal hparams heven hodd hkeep)
    · exact .inr hcollision
  · intro check check' haccepted haccepted' hauth
    rw [haccepted.auth_eq, haccepted'.auth_eq] at hauth
    rcases authDigest_inj_or_collision hauth with ⟨hhashed, heven, hodd, hkeep⟩ | hcollision
    · obtain ⟨_, hordinal, hparams⟩ := responseParams_inj hhashed
      exact .inl (Vouched.ext hordinal hparams heven hodd hkeep)
    · exact .inr hcollision
  · intro command check hordinal hauth
    rcases check.refused_or_auth_eq with hrefused | hcheck
    · exact .inl hrefused
    · rw [hcheck, command.auth_eq] at hauth
      rcases authDigest_inj_or_collision hauth.symm with ⟨hhashed, _⟩ | hcollision
      · exact absurd hhashed (commandParams_ne_responseParams hordinal)
      · exact .inr hcollision

/-- A session whose secret and nonces are all zero. -/
def zeroSession (handle : Handle) : Session := .established handle (.zero 20) .oiap (.zero 20)

/-- GetPubKey under such a session. -/
def zeroAuthorization (handle : Handle) : Authorization (.zero 20) where
  session := zeroSession handle
  ordinal := Ordinal.getPubKey
  fields := []
  nonceOdd := .zero 20
  block :=
    { authHandle := handle
      nonceOdd := .zero 20
      continueAuthSession := true
      auth := authDigest (Block.zero 20).bytes (commandDigest Ordinal.getPubKey []) (.zero 20)
        (.zero 20) true }
  after := zeroSession handle
  secret_eq := rfl
  authorize_eq := rfl

/-- A response to it without parameters. -/
def zeroCheck (handle : Handle) (auth : Digest) : Check (.zero 20) where
  session := zeroSession handle
  ordinal := Ordinal.getPubKey
  fields := []
  response := { nonceEven := .zero 20, continueAuthSession := true, auth }
  secret_eq := rfl

/-- The digest under which it is accepted. -/
def zeroAuth : Digest :=
  authDigest (Block.zero 20).bytes (responseDigest 0 Ordinal.getPubKey []) (.zero 20) (.zero 20)
    true

theorem zeroCheck_accepted (handle : Handle) : (zeroCheck handle zeroAuth).Accepted :=
  ⟨_, if_pos rfl⟩

/-- Two sessions with one secret carry the same digests, and the command's does not pass for the
response's. -/
theorem digests_bind_exchange_zero :
    ((zeroAuthorization 1).vouched = (zeroAuthorization 2).vouched ∨
      Collision (hmacSha1 (Block.zero 20).bytes) (zeroAuthorization 1).message
        (zeroAuthorization 2).message ∨
      Collision sha1 (zeroAuthorization 1).hashed (zeroAuthorization 2).hashed) ∧
    ((zeroCheck 1 zeroAuth).vouched = (zeroCheck 2 zeroAuth).vouched ∨
      Collision (hmacSha1 (Block.zero 20).bytes) (zeroCheck 1 zeroAuth).message
        (zeroCheck 2 zeroAuth).message ∨
      Collision sha1 (zeroCheck 1 zeroAuth).hashed (zeroCheck 2 zeroAuth).hashed) ∧
    ((zeroCheck 1 (zeroAuthorization 1).block.auth).Refused ∨
      Collision (hmacSha1 (Block.zero 20).bytes) (zeroAuthorization 1).message
        (zeroCheck 1 (zeroAuthorization 1).block.auth).message ∨
      Collision sha1 (zeroAuthorization 1).hashed
        (zeroCheck 1 (zeroAuthorization 1).block.auth).hashed) := by
  obtain ⟨hcommands, hresponses, hreflected⟩ := digests_bind_exchange (.zero 20)
  exact ⟨hcommands (zeroAuthorization 1) (zeroAuthorization 2) rfl,
    hresponses _ _ (zeroCheck_accepted 1) (zeroCheck_accepted 2) rfl,
    hreflected (zeroAuthorization 1) (zeroCheck 1 _) (by decide) rfl⟩

end TrustedModule
