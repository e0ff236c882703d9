import TrustedModule.Proofs.Exchange.Calls
import TrustedModule.Proofs.Exchange.Submission

/-!
# What handlers send

A handler writes one command, reads one answer and makes its result of that. The bytes of the
command follow two routes: the handler encodes one list with the key handle and the blocks in it,
and its caller authorizes the encoding of the parameters alone. The simulator comes from the other
end, since it cuts the blocks off the end of the command. All three agree on where the parameters
are.
-/

set_option autoImplicit false

namespace TrustedModule

namespace Call

/-! ## Handlers as an exchange and a judgement -/

/-- What the handler makes of the answer to its command, or of having got none. -/
def judge (call : Call) : Except Error Bytes → Option (Except Error call.Result) :=
  Client.judge call.command.tag call.kinds call.initial fun (_, values) => call.finish values

/-- A handler writes its command once, reads once, and judges what it has read. -/
theorem perform_of_request {σ : Type} [Device σ] {call : Call} {blocks : List CommandAuth}
    {request : Bytes} (hcount : blocks.length = call.command.authCount)
    (hrequest : call.request blocks = .ok request) (client : Client σ) :
    call.perform blocks client =
      (Client.transfer request client).bind fun (answer, after) =>
        (call.judge answer).map (·, after) :=
  Client.judge_of_request (perform_eq hcount) hrequest client

/-! ## The bytes of the command -/

theorem request_of_encode {call : Call} {blocks : List CommandAuth} {params : Bytes}
    (hparams : Field.encode call.params = .ok params)
    (hsize : headerSize + (AuthorizedCommand.body call.keyHandle params blocks).length <
      0x100000000) :
    call.request blocks = .ok (CommandHeader.message call.command.tag call.command.ordinal
      (AuthorizedCommand.body call.keyHandle params blocks)) := by
  rw [Call.request, CommandHeader.frame_request call.no_remainder_params, hparams]
  exact if_pos hsize

theorem request_eq_ok {call : Call} {blocks : List CommandAuth} {request : Bytes}
    (h : call.request blocks = .ok request) :
    ∃ params, Field.encode call.params = .ok params ∧ request.length < 0x100000000 ∧
      request = CommandHeader.message call.command.tag call.command.ordinal
        (AuthorizedCommand.body call.keyHandle params blocks) := by
  rw [Call.request, CommandHeader.frame_request call.no_remainder_params] at h
  obtain ⟨params, hparams, h⟩ := bind_eq_ok.mp h
  dsimp only at h
  split at h
  · rename_i hsize
    cases h
    rw [CommandHeader.length_message]
    exact ⟨params, hparams, hsize, rfl⟩
  · cases h

/-- The command that the handler writes, the digest that its caller authorizes and what the
simulator finds in the command are about the same parameters. -/
structure SentAsAuthorized (call : Call) (blocks : List CommandAuth) (request params : Bytes)
    (digest : Digest) : Prop where
  /-- The handler writes the command, and nothing else that it does depends on the device. -/
  performed : ∀ (σ : Type) [Device σ] (client : Client σ), call.perform blocks client =
    (Client.transfer request client).bind fun (answer, after) => (call.judge answer).map (·, after)
  /-- Whatever the device answers, the handler makes something of it. -/
  judged : ∀ answer, ∃ result, call.judge answer = some result
  encoded : Field.encode call.params = .ok params
  authorized : inParamDigest call.command.ordinal call.params = .ok digest
  laid_out : request = bigEndian 2 call.command.tag.toNat ++ bigEndian 4 request.length ++
    bigEndian 4 call.command.ordinal.toNat ++ bigEndian 4 call.keyHandle.toNat ++ params ++
      blocks.flatMap CommandAuth.encoding
  length_eq : request.length = 14 + params.length + 45 * blocks.length
  length_lt : request.length < 0x100000000
  decoded : Request.decode call.command.tag call.command.ordinal (request.drop headerSize) =
    some (.ok (.authorized call.command call.keyHandle params blocks))
  executed : ∀ sim : Simulator, sim.execute request =
    ((sim.logged call.command.ordinal).runAuthorized call.command call.keyHandle params blocks).map
      (Simulator.respond call.command.tag)
  /-- A block that fails the check against the caller's digest is refused. -/
  refused : ∀ (sim : Simulator) (code : ReturnCode), sim.hasKey call.keyHandle = true →
    sim.checkAuths digest .authFail blocks = .error code →
    sim.runAuthorized call.command call.keyHandle params blocks = some (.error code, sim)
  /-- A command is accepted only if all its blocks pass this check. -/
  accepted : ∀ (sim next : Simulator) (body : Bytes),
    sim.runAuthorized call.command call.keyHandle params blocks = some (.ok body, next) →
    sim.checkAuths digest .authFail blocks = .ok ()

/-- Whatever the handler is called with, if there is a command for it, this command is what its
caller authorized. -/
theorem sent_as_authorized {call : Call} {blocks : List CommandAuth} {request : Bytes}
    (hcount : blocks.length = call.command.authCount)
    (hrequest : call.request blocks = .ok request) :
    ∃ params digest, call.SentAsAuthorized blocks request params digest := by
  obtain ⟨params, hparams, hsize, hmessage⟩ := request_eq_ok hrequest
  have hlength : request.length = 14 + params.length + 45 * blocks.length := by
    rw [hmessage, CommandHeader.length_message, AuthorizedCommand.length_body, headerSize,
      CommandAuth.wireLength]
    omega
  have hdecode : Request.decode call.command.tag call.command.ordinal (request.drop headerSize) =
      some (.ok (.authorized call.command call.keyHandle params blocks)) := by
    rw [hmessage, CommandHeader.drop_message, Request.decode_body hcount]
  refine ⟨params, commandDigest call.command.ordinal params, ?_⟩
  constructor
  case performed => exact fun σ _ client => perform_of_request hcount hrequest client
  case judged => exact Client.exists_judge _ _ _
  case encoded => exact hparams
  case authorized =>
    rw [inParamDigest, hparams]
    rfl
  case laid_out =>
    have htotal : headerSize + (AuthorizedCommand.body call.keyHandle params blocks).length =
        request.length := by
      rw [hmessage, CommandHeader.length_message]
    refine hmessage.trans ?_
    rw [CommandHeader.message, htotal, AuthorizedCommand.body]
    simp only [List.append_assoc]
  case length_eq => exact hlength
  case length_lt => exact hsize
  case decoded => exact hdecode
  case executed =>
    intro sim
    rw [hmessage, CommandHeader.drop_message] at hdecode
    rw [hmessage, Simulator.execute_message, hdecode]
    rfl
  case refused =>
    intro sim code hkey hcheck
    unfold Simulator.runAuthorized
    rw [if_pos hkey, hcheck]
  case accepted =>
    intro sim next body hrun
    obtain ⟨_, hauthentic, _⟩ := Simulator.runAuthorized_eq_ok.mp hrun
    exact Simulator.checkAuths_eq_ok.mpr hauthentic

/-- Unseal is the command with two blocks. -/
theorem sent_as_authorized_unsealData :
    let stored : StoredData :=
      { version := StoredData.sealedVersion, sealInfo := [1, 2, 3], encData := [4, 5] }
    let keyAuth : CommandAuth :=
      { authHandle := 0x02000000, nonceOdd := ⟨List.replicate 20 6, rfl⟩
        continueAuthSession := true, auth := ⟨List.replicate 20 7, rfl⟩ }
    let dataAuth : CommandAuth :=
      { authHandle := 0x02000001, nonceOdd := ⟨List.replicate 20 8, rfl⟩
        continueAuthSession := false, auth := ⟨List.replicate 20 9, rfl⟩ }
    ∃ params digest, (unsealData 10 stored).SentAsAuthorized [keyAuth, dataAuth]
      (CommandHeader.message Tag.request2 Ordinal.unsealData
        (AuthorizedCommand.body 10 stored.encoding [keyAuth, dataAuth])) params digest := by
  intro stored keyAuth dataAuth
  have hparams : Field.encode (unsealData 10 stored).params = .ok stored.encoding :=
    Field.encode_ofWire (StoredData.encode_eq_ok.mpr ⟨by decide, by decide, rfl⟩)
  exact sent_as_authorized rfl (request_of_encode hparams (by
    rw [AuthorizedCommand.length_body]
    decide))

end Call

end TrustedModule
