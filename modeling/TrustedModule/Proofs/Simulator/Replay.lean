import TrustedModule.Proofs.Authorization.Binding
import TrustedModule.Proofs.Simulator.Evolution

/-!
# No replay

A command that was accepted once is not accepted again, whatever the simulator did in between: the
sessions of its blocks are closed or have later nonces, so its digests would have to be right for
other transcripts than the ones they were made for.
-/

set_option autoImplicit false

namespace TrustedModule

namespace Simulator

/-! ## Acceptance -/

/-- The device takes the command, and answers it with return code zero. -/
def Accepts (sim : Simulator) (command : Bytes) (next : Simulator) : Prop :=
  ∃ answer header, Device.write command sim = some (.ok command.length, next) ∧
    next.pending = some answer ∧ ResponseHeader.unframe answer = some (.ok header) ∧
    header.returnCode = 0

/-- With an authorized ordinal, a command is accepted only if it can be read, and if what it asks
for is authorized and done. -/
theorem Accepts.runAuthorized {sim next : Simulator} {command : Bytes} {header : CommandHeader}
    {which : AuthorizedCommand} (haccepts : sim.Accepts command next)
    (hheader : Wire.decode CommandHeader command = .ok header)
    (hordinal : header.ordinal = which.ordinal) :
    ∃ keyHandle params auths body final pending,
      Request.decode header.tag header.ordinal (command.drop headerSize) =
        some (.ok (.authorized which keyHandle params auths)) ∧
      auths.length = which.authCount ∧
      (sim.logged header.ordinal).runAuthorized which keyHandle params auths =
        some (.ok body, final) ∧
      next = { final with pending } := by
  obtain ⟨answer, response, hwrite, hpending, hunframe, hcode⟩ := haccepts
  obtain ⟨⟨answer', final⟩, hexecute, heq⟩ := Option.map_eq_some_iff.mp hwrite
  obtain ⟨_, rfl⟩ := Prod.mk.inj heq
  obtain rfl : answer' = answer := Option.some.inj hpending
  -- a refusal is not answered with return code zero
  have hrefused : ∀ code, code ≠ .success →
      answer' ≠ Simulator.answer (Tag.answering header.tag) code [] := by
    rintro code hne rfl
    rw [ResponseHeader.unframe_whole] at hunframe
    cases hunframe
    apply hne
    cases code
    exact congrArg ReturnCode.mk hcode
  obtain ⟨decoded, hdecode⟩ :=
    Request.exists_decode header.tag header.ordinal (command.drop headerSize)
  rw [execute_of_header hheader, hdecode] at hexecute
  cases decoded with
  | error code =>
    cases hexecute
    exact absurd rfl (hrefused code (Request.decode_ne_success hdecode))
  | ok request =>
    have hrequest := hdecode
    rw [hordinal, Request.decode_ordinal] at hrequest
    split at hrequest
    · cases hrequest
    · obtain ⟨keyHandle, params, auths, rfl, hcount⟩ := Request.decodeAuthorized_eq_ok hrequest
      obtain ⟨⟨result, last⟩, hrun, heq⟩ := Option.map_eq_some_iff.mp hexecute
      cases result with
      | error code =>
        cases heq
        exact absurd rfl (hrefused code (runAuthorized_ne_success hrun))
      | ok body =>
        cases heq
        exact ⟨keyHandle, params, auths, body, _, _, hdecode, hcount, hrun, rfl⟩

/-! ## Replay -/

/-- The session of the block was checked in the first state and is checked in the second, each time
at the nonce of another count and with one secret, and either the two counts have one digest, or the
two transcripts have one keyed digest. -/
def Coincidence (first second : Simulator) (paramDigest : Digest) (block : CommandAuth) : Prop :=
  ∃ (secret : Digest) (count count' : Nat), count < count' ∧ count' < 0x100000000 ∧
    first.sessions.find? block.authHandle = some ⟨sha1 (bigEndian 4 count), secret⟩ ∧
    second.sessions.find? block.authHandle = some ⟨sha1 (bigEndian 4 count'), secret⟩ ∧
    let before := transcript paramDigest (sha1 (bigEndian 4 count)) block.nonceOdd
      block.continueAuthSession
    let again := transcript paramDigest (sha1 (bigEndian 4 count')) block.nonceOdd
      block.continueAuthSession
    bigEndian 4 count ≠ bigEndian 4 count' ∧ sha1 (bigEndian 4 count) = sha1 (bigEndian 4 count') ∨
      before ≠ again ∧ hmacSha1 secret.bytes before = hmacSha1 secret.bytes again

theorem transcript_ne {nonceEven nonceEven' : Digest} (hne : nonceEven ≠ nonceEven')
    (paramDigest nonceOdd : Digest) (keep : Bool) :
    transcript paramDigest nonceEven nonceOdd keep ≠
      transcript paramDigest nonceEven' nonceOdd keep :=
  fun heq => hne (transcript_inj heq).2.1

/-- A block that is authentic in two states, at two counts, needs a coincidence. -/
theorem coincidence_of_authentic {first second : Simulator} {paramDigest : Digest}
    {block : CommandAuth} {session : SimulatorSession} {count count' : UInt32}
    (hlt : count < count') (hwrap : count' < count' + 1)
    (hfirst : first.sessions.find? block.authHandle =
      some { session with nonceEven := nonceAfter count })
    (hsecond : second.sessions.find? block.authHandle =
      some { session with nonceEven := nonceAfter count' })
    (hbefore : first.Authentic paramDigest block) (hagain : second.Authentic paramDigest block) :
    Coincidence first second paramDigest block := by
  have hcounts : (count + 1).toNat < (count' + 1).toNat := by
    rw [← UInt32.lt_iff_toNat_lt]
    grind
  refine ⟨session.secret, _, _, hcounts, (count' + 1).toNat_lt, hfirst, hsecond, ?_⟩
  by_cases hnonce : nonceAfter count = nonceAfter count'
  · exact .inl ⟨bigEndian_ne hcounts (count' + 1).toNat_lt, hnonce⟩
  · have hdigest : authDigest session.secret.bytes paramDigest (nonceAfter count) block.nonceOdd
        block.continueAuthSession = block.auth := by
      obtain ⟨found, hfind, hdigest⟩ := hbefore
      cases hfirst.symm.trans hfind
      exact hdigest
    have hdigest' : authDigest session.secret.bytes paramDigest (nonceAfter count') block.nonceOdd
        block.continueAuthSession = block.auth := by
      obtain ⟨found, hfind, hdigest⟩ := hagain
      cases hsecond.symm.trans hfind
      exact hdigest
    exact .inr ⟨transcript_ne hnonce _ _ _, hdigest.trans hdigest'.symm⟩

/-- A block that is authentic both before and after its session was renewed needs a coincidence. -/
theorem coincidence_of_renewed {first second : Simulator} {paramDigest : Digest}
    {block : CommandAuth} (hissued : Issued first) (hevolves : Evolves first second)
    (hrenewed : Renewed first second block.authHandle)
    (hbefore : first.Authentic paramDigest block) (hagain : second.Authentic paramDigest block) :
    Coincidence first second paramDigest block := by
  have ⟨session, hfind, _⟩ := hbefore
  have ⟨session', hfind', _⟩ := hagain
  obtain ⟨count, hcount, heq⟩ := hissued.nonce _ _ hfind
  obtain ⟨count', hlow, hhigh, heq'⟩ := hrenewed _ hfind'
  have hlt : count < count' := UInt32.lt_of_lt_of_le hcount hlow
  have hwrap : count' < count' + 1 := by grind
  -- the handle was in use before, so it was not issued again
  have hsecret : session.secret = session'.secret := by
    obtain ⟨nonceEven, hsame⟩ | ⟨hissue, _⟩ := hevolves.origin _ _ hfind'
    · cases hfind.symm.trans hsame
      rfl
    · have hused := hissued.handle _ _ hfind
      exact absurd (UInt32.lt_of_lt_of_le hused hissue) (UInt32.lt_irrefl _)
  have hold : session = { session with nonceEven := nonceAfter count } := by rw [← heq]
  have hnew : session' = { session with nonceEven := nonceAfter count' } := by
    rw [← heq', hsecret]
  exact coincidence_of_authentic hlt hwrap (hold ▸ hfind) (hnew ▸ hfind') hbefore hagain

/-- A command with an authorized ordinal that was accepted is never accepted again, after any calls
that do not wrap a counter around, but for a coincidence on every one of its blocks. -/
theorem replay_refused {start accepted later : Simulator} {command : Bytes}
    {header : CommandHeader} {which : AuthorizedCommand} (hstart : Reachable start)
    (hheader : Wire.decode CommandHeader command = .ok header)
    (hordinal : header.ordinal = which.ordinal) (haccepts : start.Accepts command accepted)
    (hwrap : start.NoWrap accepted) (hlater : accepted.Reaches later) :
    (∃ keyHandle params auths,
      Request.decode header.tag header.ordinal (command.drop headerSize) =
        some (.ok (.authorized which keyHandle params auths)) ∧
      auths.length = which.authCount ∧
      ∀ block ∈ auths, Coincidence start later (commandDigest which.ordinal params) block) ∨
    ∀ final, ¬ later.Accepts command final := by
  by_cases hagain : ∃ final, later.Accepts command final
  · obtain ⟨final, hagain⟩ := hagain
    obtain ⟨keyHandle, params, auths, body, next, pending, hdecode, hcount, hrun, rfl⟩ :=
      haccepts.runAuthorized hheader hordinal
    obtain ⟨_, _, _, _, _, _, hdecode', _, hrun', _⟩ := hagain.runAuthorized hheader hordinal
    cases hdecode.symm.trans hdecode'
    refine .inl ⟨keyHandle, params, auths, hdecode, hcount, ?_⟩
    intro block hmem
    obtain ⟨_, hbefore, _⟩ := runAuthorized_eq_ok.mp hrun
    obtain ⟨_, hafter, _⟩ := runAuthorized_eq_ok.mp hrun'
    -- the first run renewed the session, and the calls after it could only renew it again
    have hcount : auths.length ≤ 2 := hcount ▸ which.authCount_le
    obtain ⟨hrun, hrenewed⟩ := evolves_of_accepted hrun hcount ⟨hwrap.handles, hwrap.nonces⟩
    have hfirst : Evolves start next := (evolves_logged _ start).trans hrun
    have hpending : Evolves next { next with pending } := .of_eq rfl rfl rfl
    have hrest : Evolves next later := hpending.trans (Reaches.evolves hlater)
    exact coincidence_of_renewed hstart.issued (hfirst.trans hrest)
      (hrest.renewed hfirst.toNoWrap (hrenewed block hmem)) (hbefore block hmem)
      (hafter block hmem)
  · exact .inr (not_exists.mp hagain)

/-- GetPubKey for the storage root key under the session of `afterOiap`. -/
def pubKeyRequest : Bytes :=
  CommandHeader.message Tag.request1 Ordinal.getPubKey
    (AuthorizedCommand.body Handle.storageRootKey [] [pubKeyBlock])

/-- The device accepts a GetPubKey, its answer is read, and the same bytes come again. -/
theorem replay_refused_pubKey : ∃ accepted later, afterOiap.Accepts pubKeyRequest accepted ∧
    later = (Device.read 4096 accepted).2 ∧
    ((∃ keyHandle params auths,
      Request.decode Tag.request1 Ordinal.getPubKey (pubKeyRequest.drop headerSize) =
        some (.ok (.authorized .getPubKey keyHandle params auths)) ∧
      auths.length = 1 ∧
      ∀ block ∈ auths, Coincidence afterOiap later (commandDigest Ordinal.getPubKey params) block) ∨
    ∀ final, ¬ later.Accepts pubKeyRequest final) := by
  have hrun : (afterOiap.execute pubKeyRequest).any (fun ran => decide
      (((ResponseHeader.unframe ran.1).bind Except.toOption).map ResponseHeader.returnCode =
          some 0 ∧
        afterOiap.nextSession ≤ ran.2.nextSession ∧
        afterOiap.nonceCounter ≤ ran.2.nonceCounter)) = true := by
    decide +kernel
  obtain ⟨⟨answer, next⟩, hexecute, hnext⟩ := (Option.any_eq_true _ _).mp hrun
  obtain ⟨hcode, hhandles, hnonces⟩ := of_decide_eq_true hnext
  have haccepts : afterOiap.Accepts pubKeyRequest { next with pending := some answer } := by
    obtain ⟨header, hheader, hcode⟩ := Option.map_eq_some_iff.mp hcode
    obtain ⟨unframed, hunframe, hok⟩ := Option.bind_eq_some_iff.mp hheader
    cases unframed with
    | error error => cases hok
    | ok other =>
      cases hok
      refine ⟨answer, header, ?_, rfl, hunframe, hcode⟩
      simp only [Device.write, hexecute, Option.map_some]
  refine ⟨_, _, haccepts, rfl, ?_⟩
  exact replay_refused reachable_afterOiap (CommandHeader.decode_message ..) rfl haccepts
    ⟨hhandles, hnonces⟩ (.single (.read _ _))

end Simulator

end TrustedModule
