import TrustedModule.Proofs.Authorization.Lifecycle
import TrustedModule.Proofs.Wire.Failures

/-!
# Authorizing in vain

A session that cannot authorize a command says why. It has ended, or the parameters have no
encoding. In the latter case the session has already taken up the odd nonce of the command that was
never made, and so it no longer believes the response to the command before.
-/

set_option autoImplicit false

namespace TrustedModule

namespace Session

/-- Why a session makes no block for some parameters. -/
inductive Denies (session : Session) (params : List Field) : Error → Prop
  | ended : session.terminated = true → Denies session params (.sessionTerminated session.handle)
  | layout (fault : LayoutFault) : session.terminated = false →
      FieldKind.layoutFault? (params.map Field.kind) = some fault →
      Denies session params (.layout fault)
  | overflow (what : Overflow) : session.terminated = false →
      FieldKind.layoutFault? (params.map Field.kind) = none →
      Field.encode params = .error (.overflow what) → Denies session params (.overflow what)

/-- A session that is alive takes up the odd nonce before it looks at the parameters. -/
theorem authorize_of_encode_error {session : Session} {params : List Field} {error : Error}
    (halive : session.terminated = false) (hparams : Field.encode params = .error error)
    (ordinal : UInt32) (nonceOdd : Digest) :
    session.authorize ordinal params nonceOdd = (.error error, { session with nonceOdd }) := by
  unfold authorize inParamDigest
  rw [halive, hparams]
  rfl

section Failing

variable {session after : Session} {ordinal : UInt32} {params outParams : List Field}
  {nonceOdd : Digest} {error : Error} {response : ResponseAuth}

theorem authorize_eq_error
    (h : session.authorize ordinal params nonceOdd = (.error error, after)) :
    session.Denies params error ∧
      after = if session.terminated then session else { session with nonceOdd } := by
  by_cases hended : session.terminated = true
  · rw [authorize_of_terminated hended] at h
    obtain ⟨herror, rfl⟩ := Prod.mk.inj h
    cases herror
    rw [if_pos hended]
    exact ⟨.ended hended, rfl⟩
  · have halive : session.terminated = false := by simpa using hended
    cases hencode : Field.encode params with
    | ok bytes =>
      rw [authorize_of_encode halive hencode] at h
      cases h
    | error other =>
      rw [authorize_of_encode_error halive hencode] at h
      obtain ⟨herror, rfl⟩ := Prod.mk.inj h
      cases herror
      rw [if_neg hended]
      refine ⟨?_, rfl⟩
      rcases Field.encode_eq_error hencode with ⟨fault, hfault, rfl⟩ | ⟨hlayout, what, rfl⟩
      · exact .layout fault halive hfault
      · exact .overflow what halive hlayout hencode

/-- The digest of a response stands for one odd nonce, but for a collision. -/
theorem checkResponse_of_other_nonce
    (h : session.checkResponse ordinal outParams response = (.ok (), session.roll response))
    (hne : nonceOdd ≠ session.nonceOdd) :
    ({ session with nonceOdd } : Session).checkResponse ordinal outParams response =
        (.error .responseAuthMismatch, { session with nonceOdd }) ∨
      ∃ digest, Collision (hmacSha1 session.secret.bytes)
        (transcript digest response.nonceEven session.nonceOdd response.continueAuthSession)
        (transcript digest response.nonceEven nonceOdd response.continueAuthSession) := by
  rcases session.checkResponse_cases ordinal outParams response with
    ⟨error, hrefused⟩ | ⟨bytes, hencode, hauth, _⟩
  · rw [hrefused] at h
    cases h
  by_cases hdigest : authDigest session.secret.bytes (responseDigest 0 ordinal bytes)
      response.nonceEven nonceOdd response.continueAuthSession = response.auth
  · right
    refine ⟨responseDigest 0 ordinal bytes, ?_, hauth.symm.trans hdigest.symm⟩
    intro hmessage
    obtain ⟨_, _, hodd, _⟩ := transcript_inj hmessage
    exact hne hodd.symm
  · left
    rw [checkResponse_of_encode hencode]
    exact if_neg hdigest

/-- A session that authorizes nothing has ended and stays as it is, or the parameters have no
encoding and the odd nonce is the one part of the session that changes. A response that it would
have accepted before is still accepted if it had ended, or if the nonce is the same; otherwise it
is refused, but for a collision of the two transcripts. -/
theorem authorize_failed
    (h : session.authorize ordinal params nonceOdd = (.error error, after)) :
    session.Denies params error ∧
    after = (if session.terminated then session else { session with nonceOdd }) ∧
    (after = session ↔ session.terminated = true ∨ nonceOdd = session.nonceOdd) ∧
    ∀ ordinal outParams response,
      session.checkResponse ordinal outParams response = (.ok (), session.roll response) →
      (after = session →
        after.checkResponse ordinal outParams response = (.ok (), after.roll response)) ∧
      (after ≠ session →
        after.checkResponse ordinal outParams response = (.error .responseAuthMismatch, after) ∨
        ∃ digest, Collision (hmacSha1 session.secret.bytes)
          (transcript digest response.nonceEven session.nonceOdd response.continueAuthSession)
          (transcript digest response.nonceEven nonceOdd response.continueAuthSession)) := by
  obtain ⟨hdenies, hafter⟩ := authorize_eq_error h
  have hsame : after = session ↔ session.terminated = true ∨ nonceOdd = session.nonceOdd := by
    rw [hafter]
    split
    · rename_i hended
      exact ⟨fun _ => .inl hended, fun _ => rfl⟩
    · rename_i halive
      constructor
      · intro heq
        exact .inr (congrArg Session.nonceOdd heq)
      · rintro (hended | rfl)
        · exact absurd hended halive
        · rfl
  refine ⟨hdenies, hafter, hsame, ?_⟩
  intro ordinal outParams response haccepted
  constructor
  · intro heq
    rw [heq]
    exact haccepted
  · intro hne
    obtain ⟨halive, hnonce⟩ := not_or.mp (mt hsame.mpr hne)
    rw [if_neg halive] at hafter
    rw [hafter]
    exact checkResponse_of_other_nonce haccepted hnonce

end Failing

/-- Two remainders have no layout. -/
def twoRemainders : List Field := [.remainder [], .remainder []]

/-- The nonce of a command that is never made. -/
def wastedNonce : Digest := ⟨List.replicate 20 1, List.length_replicate⟩

/-- The response that belongs to the command which `zeroAuthorization` made. -/
def pendingResponse : ResponseAuth :=
  { nonceEven := .zero 20, continueAuthSession := true, auth := zeroAuth }

theorem authorize_failed_twoRemainders :
    (zeroSession 1).Denies twoRemainders (.layout .secondRemainder) ∧
    ({ zeroSession 1 with nonceOdd := wastedNonce } : Session) ≠ zeroSession 1 :=
  have h : (zeroSession 1).authorize Ordinal.getPubKey twoRemainders wastedNonce =
      (.error (.layout .secondRemainder), { zeroSession 1 with nonceOdd := wastedNonce }) := rfl
  ⟨(authorize_failed h).1, fun heq => absurd ((authorize_failed h).2.2.1.mp heq) (by decide)⟩

/-- A command is authorized, the next one cannot be, and the response to the first is refused. -/
theorem authorize_forgets_pending :
    (zeroSession 1).authorize Ordinal.getPubKey [] (.zero 20) =
      (.ok (zeroAuthorization 1).block, zeroSession 1) ∧
    (zeroSession 1).checkResponse Ordinal.getPubKey [] pendingResponse =
      (.ok (), (zeroSession 1).roll pendingResponse) ∧
    (zeroSession 1).authorize Ordinal.getPubKey twoRemainders wastedNonce =
      (.error (.layout .secondRemainder), { zeroSession 1 with nonceOdd := wastedNonce }) ∧
    ({ zeroSession 1 with nonceOdd := wastedNonce } : Session).checkResponse Ordinal.getPubKey []
        pendingResponse =
      (.error .responseAuthMismatch, { zeroSession 1 with nonceOdd := wastedNonce }) := by
  have hpending : authDigest (Block.zero 20).bytes (responseDigest 0 Ordinal.getPubKey [])
      (.zero 20) (.zero 20) true = zeroAuth := rfl
  have hother : authDigest (Block.zero 20).bytes (responseDigest 0 Ordinal.getPubKey [])
      (.zero 20) wastedNonce true ≠ zeroAuth := by
    decide +kernel
  refine ⟨(zeroAuthorization 1).authorize_eq, ?_, authorize_of_encode_error rfl rfl _ _, ?_⟩
  · rw [checkResponse_of_encode rfl]
    exact if_pos hpending
  · rw [checkResponse_of_encode rfl]
    exact if_neg hother

end Session

end TrustedModule
