import TrustedModule.Proofs.Authorization.Binding

/-!
# The life of a session

A session starts with a handshake, and four calls may change it afterwards: authorizing a command,
checking a response, rolling without a check and asking to keep the session open. Of these only a
response that is rolled or accepted brings a new even nonce, and only such a response can end the
session. So all that the even nonce and the end of a session depend on is the list of the responses
that it took.
-/

set_option autoImplicit false

namespace TrustedModule

/-- The two ways in which a session starts. -/
inductive Handshake
  | oiap (response : OiapResponse) (usageAuth : Digest)
  | osap (command : OsapCommand) (response : OsapResponse) (entityAuth : Digest)

namespace Handshake

def session : Handshake → Session
  | .oiap response usageAuth => .ofOiap response usageAuth
  | .osap command response entityAuth => .ofOsap command response entityAuth

/-! What the two ends agreed on. -/

def handle : Handshake → Handle
  | .oiap response _ => response.authHandle
  | .osap _ response _ => response.authHandle

def nonceEven : Handshake → Digest
  | .oiap response _ => response.nonceEven
  | .osap _ response _ => response.nonceEven

def kind : Handshake → SessionKind
  | .oiap _ _ => .oiap
  | .osap command _ _ => .osap command.entityType command.entityValue

def secret : Handshake → Digest
  | .oiap _ usageAuth => usageAuth
  | .osap command response entityAuth =>
    sharedSecret entityAuth response.nonceEvenOsap command.nonceOddOsap

theorem session_eq (start : Handshake) :
    start.session = .established start.handle start.nonceEven start.kind start.secret := by
  cases start <;> rfl

end Handshake

namespace Session

/-- A call that may change a session. -/
inductive Call
  | authorize (ordinal : UInt32) (params : List Field) (nonceOdd : Digest)
  | checkResponse (ordinal : UInt32) (outParams : List Field) (response : ResponseAuth)
  | roll (response : ResponseAuth)
  | setContinue (keep : Bool)

namespace Call

/-- The session as the call leaves it. -/
def perform : Call → Session → Session
  | .authorize ordinal params nonceOdd, session =>
    (session.authorize ordinal params nonceOdd).2
  | .checkResponse ordinal outParams response, session =>
    (session.checkResponse ordinal outParams response).2
  | .roll response, session => session.roll response
  | .setContinue keep, session => session.setContinue keep

/-- The response that the call brings into the session: one that is rolled without a check, or one
that the check accepts. -/
def taken? : Call → Session → Option ResponseAuth
  | .checkResponse ordinal outParams response, session =>
    match (session.checkResponse ordinal outParams response).1 with
    | .ok () => some response
    | .error _ => none
  | .roll response, _ => some response
  | .authorize _ _ _, _ | .setContinue _, _ => none

end Call

/-- The session after some calls. -/
def after (session : Session) : List Call → Session
  | [] => session
  | call :: calls => (call.perform session).after calls

/-- The responses that the calls bring into the session, in order. -/
def taken (session : Session) : List Call → List ResponseAuth
  | [] => []
  | call :: calls => (call.taken? session).toList ++ (call.perform session).taken calls

section Steps

variable (session : Session)

theorem isActive_eq_false : session.isActive = false ↔ session.terminated = true := by
  simp [isActive]

/-- A session that has ended authorizes nothing, and does not even take up the odd nonce. -/
theorem authorize_of_terminated {session : Session} (h : session.terminated = true)
    (ordinal : UInt32) (params : List Field) (nonceOdd : Digest) :
    session.authorize ordinal params nonceOdd =
      (.error (.sessionTerminated session.handle), session) :=
  if_pos h

theorem authorize_after (ordinal : UInt32) (params : List Field) (nonceOdd : Digest) :
    (session.authorize ordinal params nonceOdd).2 = session ∨
      (session.authorize ordinal params nonceOdd).2 = { session with nonceOdd } := by
  unfold authorize
  split
  · exact .inl rfl
  · exact .inr rfl

/-- A check that fails has one of two reasons, and changes nothing. -/
theorem checkResponse_eq_error {session : Session} {ordinal : UInt32} {outParams : List Field}
    {response : ResponseAuth} {error : Error}
    (h : (session.checkResponse ordinal outParams response).1 = .error error) :
    (session.checkResponse ordinal outParams response).2 = session ∧
      (error = .responseAuthMismatch ∨ Field.encode outParams = .error error) := by
  unfold checkResponse outParamDigest at h ⊢
  cases hencode : Field.encode outParams with
  | error reason =>
    rw [hencode] at h
    cases h
    exact ⟨rfl, .inr rfl⟩
  | ok params =>
    rw [hencode] at h
    simp only [Except.map] at h ⊢
    split at h
    · cases h
    · rename_i hdigest
      cases h
      rw [if_neg hdigest]
      exact ⟨rfl, .inl rfl⟩

/-- What one call does to the parts of a session that matter to its peer. -/
structure Step (before : Session) (response? : Option ResponseAuth) (after : Session) : Prop where
  handle : after.handle = before.handle
  kind : after.kind = before.kind
  secret : after.secret = before.secret
  nonceEven : after.nonceEven = (response?.map ResponseAuth.nonceEven).getD before.nonceEven
  terminated : after.terminated = true ↔
    before.terminated = true ∨ ∃ response ∈ response?, response.continueAuthSession = false

/-- A call that brings no response leaves all these parts alone. -/
theorem Step.of_none {before after : Session} (hhandle : after.handle = before.handle)
    (hkind : after.kind = before.kind) (hsecret : after.secret = before.secret)
    (hnonce : after.nonceEven = before.nonceEven)
    (hterminated : after.terminated = before.terminated) : Step before none after where
  handle := hhandle
  kind := hkind
  secret := hsecret
  nonceEven := hnonce
  terminated := by simp [hterminated]

theorem step_roll (response : ResponseAuth) :
    Step session (some response) (session.roll response) where
  handle := rfl
  kind := rfl
  secret := rfl
  nonceEven := rfl
  terminated := by simp [roll]

theorem Call.step (call : Call) : Step session (call.taken? session) (call.perform session) := by
  cases call with
  | authorize ordinal params nonceOdd =>
    simp only [perform, taken?]
    rcases session.authorize_after ordinal params nonceOdd with hsame | hsame
    · rw [hsame]
      exact .of_none rfl rfl rfl rfl rfl
    · rw [hsame]
      exact .of_none rfl rfl rfl rfl rfl
  | checkResponse ordinal outParams response =>
    simp only [perform, taken?]
    rcases session.checkResponse_cases ordinal outParams response with
      ⟨error, hrefused⟩ | ⟨_, _, _, haccepted⟩
    · rw [hrefused]
      exact .of_none rfl rfl rfl rfl rfl
    · rw [haccepted]
      exact session.step_roll response
  | roll response => exact session.step_roll response
  | setContinue keep => exact .of_none rfl rfl rfl rfl rfl

end Steps

/-! ## Any number of calls -/

theorem after_append (session : Session) (calls later : List Call) :
    session.after (calls ++ later) = (session.after calls).after later := by
  induction calls generalizing session with
  | nil => rfl
  | cons call calls ih => exact ih (call.perform session)

section Run

variable (session : Session) (calls : List Call)

theorem created_after : (session.after calls).handle = session.handle ∧
    (session.after calls).kind = session.kind ∧
    (session.after calls).secret = session.secret := by
  induction calls generalizing session with
  | nil => exact ⟨rfl, rfl, rfl⟩
  | cons call calls ih =>
    obtain ⟨hhandle, hkind, hsecret⟩ := ih (call.perform session)
    have hstep := call.step session
    exact ⟨hhandle.trans hstep.handle, hkind.trans hstep.kind, hsecret.trans hstep.secret⟩

theorem nonceEven_after : (session.after calls).nonceEven =
    ((session.taken calls).getLast?.map ResponseAuth.nonceEven).getD session.nonceEven := by
  induction calls generalizing session with
  | nil => rfl
  | cons call calls ih =>
    have hstep := (call.step session).nonceEven
    rw [after, ih, taken, hstep]
    -- the last response of the later calls comes first, then that of this one
    cases call.taken? session with
    | none => rfl
    | some response =>
      rw [Option.toList_some, List.singleton_append, List.getLast?_cons]
      cases ((call.perform session).taken calls).getLast? <;> rfl

theorem terminated_after : (session.after calls).terminated = true ↔
    session.terminated = true ∨
      ∃ response ∈ session.taken calls, response.continueAuthSession = false := by
  induction calls generalizing session with
  | nil => simp [after, taken]
  | cons call calls ih =>
    have hstep := (call.step session).terminated
    rw [after, ih, hstep, taken]
    cases call.taken? session with
    | none => simp
    | some response => simp [or_assoc]

end Run

end Session

/-- Over its whole life a session keeps what it was created with, has the even nonce of the last
response that it took, and has ended exactly if one of these said so. Then it stays ended and
authorizes nothing. A response that it does not accept changes no part of it. -/
theorem Handshake.session_lifecycle (start : Handshake) (calls : List Session.Call) :
    (start.session.after calls).handle = start.handle ∧
    (start.session.after calls).kind = start.kind ∧
    (start.session.after calls).secret = start.secret ∧
    (start.session.after calls).nonceEven =
      ((start.session.taken calls).getLast?.map ResponseAuth.nonceEven).getD start.nonceEven ∧
    ((start.session.after calls).isActive = false ↔
      ∃ response ∈ start.session.taken calls, response.continueAuthSession = false) ∧
    ((start.session.after calls).isActive = false →
      (∀ later, (start.session.after (calls ++ later)).isActive = false) ∧
      ∀ ordinal params nonceOdd,
        (start.session.after calls).authorize ordinal params nonceOdd =
          (.error (.sessionTerminated start.handle), start.session.after calls)) ∧
    ∀ ordinal outParams response error,
      ((start.session.after calls).checkResponse ordinal outParams response).1 = .error error →
        ((start.session.after calls).checkResponse ordinal outParams response).2 =
          start.session.after calls ∧
        (error = .responseAuthMismatch ∨ Field.encode outParams = .error error) := by
  obtain ⟨hhandle, hkind, hsecret⟩ := start.session.created_after calls
  have hnonce := start.session.nonceEven_after calls
  have hended := start.session.terminated_after calls
  rw [start.session_eq] at hhandle hkind hsecret hnonce hended ⊢
  refine ⟨hhandle, hkind, hsecret, hnonce, ?_, ?_, ?_⟩
  · rw [Session.isActive_eq_false, hended]
    exact or_iff_right Bool.false_ne_true
  · intro hinactive
    rw [Session.isActive_eq_false] at hinactive
    constructor
    · intro later
      rw [Session.isActive_eq_false, Session.after_append, Session.terminated_after]
      exact .inl hinactive
    · intro ordinal params nonceOdd
      rw [Session.authorize_of_terminated hinactive, hhandle]
      rfl
  · intro ordinal outParams response error herror
    exact Session.checkResponse_eq_error herror

/-- A response that ends the session, and one behind it that would keep it open. -/
def closingCalls : List Session.Call :=
  [.roll { continueAuthSession := false },
    .roll { nonceEven := sha1 [], continueAuthSession := true }]

/-- The later response brings its nonce, but not the session back. -/
theorem session_lifecycle_closing :
    ((Handshake.oiap {} (.zero 20)).session.after closingCalls).nonceEven = sha1 [] ∧
    ((Handshake.oiap {} (.zero 20)).session.after closingCalls).authorize Ordinal.getPubKey []
      (.zero 20) = (.error (.sessionTerminated 0),
        (Handshake.oiap {} (.zero 20)).session.after closingCalls) := by
  obtain ⟨_, _, _, hnonce, hended, hstays, _⟩ :=
    (Handshake.oiap {} (.zero 20)).session_lifecycle closingCalls
  have hinactive := hended.mpr ⟨_, List.mem_cons_self, rfl⟩
  exact ⟨hnonce, (hstays hinactive).2 _ _ _⟩

end TrustedModule
