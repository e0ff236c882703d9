import TrustedModule.Proofs.Exchange.Handlers
import TrustedModule.Proofs.Exchange.Sealing

/-!
# Sessions that do not agree with the device

A copy of a session that missed an exchange, or one that was set up with another secret, names an
open session of the device but computes its digests from other values. Its blocks are refused, and
the return code tells whether it was the first block or the second. Nothing but two different keyed
messages with one digest could make the device accept such a block.
-/

set_option autoImplicit false

namespace TrustedModule

/-- Two different keyed messages with one digest. -/
def KeyedCollision (key message key' message' : Bytes) : Prop :=
  (key, message) ≠ (key', message') ∧ hmacSha1 key message = hmacSha1 key' message'

instance (key message key' message' : Bytes) :
    Decidable (KeyedCollision key message key' message') :=
  inferInstanceAs (Decidable (_ ∧ _))

/-- Ends of a session that differ in the secret or in the even nonce digest different messages. -/
theorem keyedMessage_ne {secret secret' nonceEven nonceEven' : Digest}
    (h : secret ≠ secret' ∨ nonceEven ≠ nonceEven') (paramDigest nonceOdd : Digest)
    (keep : Bool) : (secret.bytes, transcript paramDigest nonceEven nonceOdd keep) ≠
      (secret'.bytes, transcript paramDigest nonceEven' nonceOdd keep) := by
  intro heq
  obtain ⟨hsecret, hmessage⟩ := Prod.mk.inj heq
  obtain ⟨_, hnonce, _⟩ := transcript_inj hmessage
  rcases h with hne | hne
  · exact hne (Block.ext hsecret)
  · exact hne hnonce

namespace Session

/-- The first session of a new simulator, set up with another secret. -/
def misKeyed : Session :=
  established 0x02000000 (Simulator.nonceAfter 0) .oiap ⟨List.replicate 20 1, rfl⟩

/-- What the device holds under its handle. -/
theorem find?_misKeyed : Simulator.afterOiap.sessions.find? misKeyed.handle =
    some ⟨Simulator.nonceAfter 0, wellKnownSecret⟩ :=
  HandleTable.find?_insert_self ..

end Session

namespace Simulator

/-- Behind blocks that pass, the first that does not is the one that is refused. -/
theorem checkAuths_of_wrong {sim : Simulator} {paramDigest : Digest} {earlier : List CommandAuth}
    {block : CommandAuth} {session : SimulatorSession}
    (hearlier : ∀ other ∈ earlier, sim.Authentic paramDigest other)
    (hfind : sim.sessions.find? block.authHandle = some session)
    (hwrong : authDigest session.secret.bytes paramDigest session.nonceEven block.nonceOdd
      block.continueAuthSession ≠ block.auth) (refusal : ReturnCode) (later : List CommandAuth) :
    sim.checkAuths paramDigest refusal (earlier ++ block :: later) =
      .error (if earlier = [] then refusal else .auth2Fail) := by
  induction earlier generalizing refusal with
  | nil =>
    rw [List.nil_append, checkAuths, hfind, if_pos rfl]
    exact if_neg hwrong
  | cons first earlier ih =>
    obtain ⟨⟨held, hheld, hdigest⟩, hearlier⟩ := List.forall_mem_cons.mp hearlier
    rw [List.cons_append, checkAuths, hheld]
    dsimp only
    rw [if_pos hdigest, ih hearlier, ite_self, if_neg (List.cons_ne_nil _ _)]

end Simulator

namespace Call

section Performing

variable {call : Call} {blocks : List CommandAuth} {request params : Bytes}

/-- What a handler makes of a command that reaches the simulator. -/
theorem perform_simulator (hcount : blocks.length = call.command.authCount)
    (hrequest : call.request blocks = .ok request) (hparams : Field.encode call.params = .ok params)
    (sim : Simulator) (limit : Nat) :
    call.perform blocks (⟨sim, limit⟩ : Client Simulator) =
      if limit < bufferLimit then
        ((sim.logged call.command.ordinal).runAuthorized call.command call.keyHandle params
            blocks).map fun (result, next) =>
          ((Client.outcome limit call.kinds call.initial result).bind fun (_, values) =>
            call.finish values, ⟨{ next with pending := none }, limit⟩)
      else
        none := by
  obtain ⟨_, hencode, hsize, rfl⟩ := request_eq_ok hrequest
  cases hparams.symm.trans hencode
  rw [CommandHeader.length_message] at hsize
  rw [perform_eq hcount, Client.bind_ofExcept,
    Client.submit_authorized call.no_remainder_params hparams hcount hsize]
  split
  · rw [Option.map_map]
    rfl
  · rfl

/-- A refusal reaches every client that can read a header, and moves nothing. -/
theorem perform_refused {sim : Simulator} {limit : Nat} {code : ReturnCode}
    (hcount : blocks.length = call.command.authCount)
    (hrequest : call.request blocks = .ok request) (hparams : Field.encode call.params = .ok params)
    (hlow : headerSize ≤ limit) (hlimit : limit < bufferLimit)
    (hkey : sim.hasKey call.keyHandle = true)
    (hcheck : (sim.logged call.command.ordinal).checkAuths
      (commandDigest call.command.ordinal params) .authFail blocks = .error code) :
    call.perform blocks (⟨sim, limit⟩ : Client Simulator) =
      some (.error (.device code),
        ⟨{ sim.logged call.command.ordinal with pending := none }, limit⟩) := by
  have hrun : (sim.logged call.command.ordinal).runAuthorized call.command call.keyHandle params
      blocks = some (.error code, sim.logged call.command.ordinal) := by
    unfold Simulator.runAuthorized
    rw [hcheck]
    exact if_pos hkey
  have houtcome : Client.outcome limit call.kinds call.initial (.error code) =
      .error (.device code) := if_neg (Nat.not_lt.mpr hlow)
  rw [perform_simulator hcount hrequest hparams, if_pos hlimit, hrun, Option.map_some]
  dsimp only
  rw [houtcome]
  rfl

end Performing

/-- A block of a session that has another secret or another even nonce than the device is refused,
with one code if it is the first block and with another behind blocks of sessions in sync. Sessions
and keys stay as they are. -/
theorem stale_session_refused {call : Call} {sim : Simulator} {limit : Nat}
    {session after : Session} {held : SimulatorSession} {nonceOdd : Digest} {block : CommandAuth}
    {earlier later : List CommandAuth} {request : Bytes} (hlow : headerSize ≤ limit)
    (hlimit : limit < bufferLimit) (hkey : sim.hasKey call.keyHandle = true)
    (hopen : sim.sessions.find? session.handle = some held)
    (hstale : session.secret ≠ held.secret ∨ session.nonceEven ≠ held.nonceEven)
    (hauthorize : session.authorize call.command.ordinal call.params nonceOdd = (.ok block, after))
    (hearlier : ∀ first ∈ earlier, ∃ (other : Session) (nonce : Digest), other.InSync sim ∧
      (other.authorize call.command.ordinal call.params nonce).1 = .ok first)
    (hcount : (earlier ++ block :: later).length = call.command.authCount)
    (hrequest : call.request (earlier ++ block :: later) = .ok request) :
    ∃ params, Field.encode call.params = .ok params ∧
      (KeyedCollision
        session.secret.bytes (transcript (commandDigest call.command.ordinal params)
          session.nonceEven nonceOdd session.continueAuthSession)
        held.secret.bytes (transcript (commandDigest call.command.ordinal params)
          held.nonceEven nonceOdd session.continueAuthSession) ∨
      ∃ next : Simulator,
        call.perform (earlier ++ block :: later) (⟨sim, limit⟩ : Client Simulator) =
          some (.error (.device (if earlier = [] then .authFail else .auth2Fail)),
            ⟨next, limit⟩) ∧
        next.sessions = sim.sessions ∧ next.keys = sim.keys) := by
  obtain ⟨params, hparams, rfl⟩ := Session.authorize_eq_block hauthorize
  refine ⟨params, hparams, ?_⟩
  have hne := keyedMessage_ne hstale (commandDigest call.command.ordinal params) nonceOdd
    session.continueAuthSession
  by_cases hdigest : (session.block call.command.ordinal params nonceOdd).auth =
      authDigest held.secret.bytes (commandDigest call.command.ordinal params) held.nonceEven
        nonceOdd session.continueAuthSession
  · exact .inl ⟨hne, hdigest⟩
  · right
    have hauthentic : ∀ first ∈ earlier, (sim.logged call.command.ordinal).Authentic
        (commandDigest call.command.ordinal params) first := by
      intro first hmem
      obtain ⟨other, nonce, hsync, hfirst⟩ := hearlier first hmem
      obtain ⟨made, hmade, _, hauthentic⟩ :=
        Session.authentic_authorize hsync hparams call.command.ordinal nonce
      cases hfirst.symm.trans hmade
      exact hauthentic
    have hheld : (sim.logged call.command.ordinal).sessions.find?
        (session.block call.command.ordinal params nonceOdd).authHandle = some held := hopen
    have hcheck := Simulator.checkAuths_of_wrong hauthentic hheld (Ne.symm hdigest) .authFail later
    exact ⟨_, perform_refused hcount hrequest hparams hlow hlimit hkey hcheck, rfl, rfl⟩

/-! ## A session with a wrong secret -/

theorem encode_default : Field.encode (unsealData Handle.storageRootKey default).params =
    .ok (StoredData.encoding default) :=
  Field.encode_ofWire (StoredData.encode_eq_ok.mpr ⟨by decide, by decide, rfl⟩)

theorem request_default (blocks : List CommandAuth) (hcount : blocks.length = 2) :
    (unsealData Handle.storageRootKey default).request blocks =
      .ok (CommandHeader.message Tag.request2 Ordinal.unsealData
        (AuthorizedCommand.body Handle.storageRootKey (StoredData.encoding default) blocks)) :=
  request_of_encode encode_default (by
    rw [AuthorizedCommand.length_body, hcount]
    decide)

/-- An unseal whose first block is good and whose second is from the session with the wrong
secret. -/
theorem stale_session_refused_misKeyed :
    ∃ next : Simulator,
      (unsealData Handle.storageRootKey default).perform
          [Session.first.block Ordinal.unsealData (StoredData.encoding default) (.zero 20),
            Session.misKeyed.block Ordinal.unsealData (StoredData.encoding default) (.zero 20)]
          (⟨Simulator.afterOiap, 4096⟩ : Client Simulator) =
        some (.error (.device .auth2Fail), ⟨next, 4096⟩) ∧
      next.sessions = Simulator.afterOiap.sessions ∧ next.keys = Simulator.afterOiap.keys := by
  have hauthorize : ∀ session : Session, session.terminated = false →
      session.authorize Ordinal.unsealData (unsealData Handle.storageRootKey default).params
        (.zero 20) = _ :=
    fun session halive => Session.authorize_of_encode halive encode_default _ _
  obtain ⟨params, hparams, hcollision | hrefused⟩ :=
    @stale_session_refused (unsealData Handle.storageRootKey default) Simulator.afterOiap 4096
      Session.misKeyed _ _ _ _
      [Session.first.block Ordinal.unsealData (StoredData.encoding default) (.zero 20)] [] _
      (by decide) (by decide) rfl Session.find?_misKeyed (by decide)
      (hauthorize Session.misKeyed rfl)
      (by
        intro first hmem
        rw [List.mem_singleton.mp hmem]
        exact ⟨Session.first, .zero 20, Session.first_inSync,
          congrArg Prod.fst (hauthorize Session.first rfl)⟩)
      rfl (request_default _ rfl)
  · cases encode_default.symm.trans hparams
    exact absurd hcollision (by decide +kernel)
  · exact hrefused

/-- A limit on answers can be more than any buffer holds; then the client does not learn of the
refusal, although the digests differ. -/
theorem stale_session_beyond_buffers :
    Simulator.afterOiap.Reachable ∧ Simulator.afterOiap.hasKey Handle.storageRootKey = true ∧
      headerSize ≤ bufferLimit ∧
      Simulator.afterOiap.sessions.find? Session.misKeyed.handle =
        some ⟨Simulator.nonceAfter 0, wellKnownSecret⟩ ∧
      Session.misKeyed.secret ≠ wellKnownSecret ∧
      ¬ KeyedCollision
        Session.misKeyed.secret.bytes (transcript (commandDigest Ordinal.getPubKey [])
          (Simulator.nonceAfter 0) (.zero 20) true)
        wellKnownSecret.bytes (transcript (commandDigest Ordinal.getPubKey [])
          (Simulator.nonceAfter 0) (.zero 20) true) ∧
      ∃ block after, Session.misKeyed.authorize Ordinal.getPubKey
          (getPubKey Handle.storageRootKey).params (.zero 20) = (.ok block, after) ∧
        (∃ request, (getPubKey Handle.storageRootKey).request [block] = .ok request) ∧
        (getPubKey Handle.storageRootKey).perform [block]
          (⟨Simulator.afterOiap, bufferLimit⟩ : Client Simulator) = none := by
  refine ⟨Simulator.reachable_afterOiap, rfl, by decide, Session.find?_misKeyed, by decide,
    by decide +kernel, _, _, Session.authorize_of_encode rfl rfl _ _, ⟨_, rfl⟩, ?_⟩
  rw [perform_simulator rfl rfl rfl]
  exact if_neg (Nat.lt_irrefl _)

end Call

end TrustedModule
