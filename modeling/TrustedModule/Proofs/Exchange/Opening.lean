import TrustedModule.Client.Sessions
import TrustedModule.Proofs.Exchange.Authorized
import TrustedModule.Proofs.Simulator.Evolution
import TrustedModule.Proofs.Simulator.Handshakes

/-!
# Opening sessions

A session that a client opens with the secret that the simulator knows is held by both ends with the
same nonce and the same secret. Its handle is a new one, so the other sessions stay as they are.
-/

set_option autoImplicit false

namespace TrustedModule

namespace Session

/-- The session is alive, and the device holds it with the same nonce and the same secret. -/
def InSync (sim : Simulator) (session : Session) : Prop :=
  session.terminated = false ∧
    sim.sessions.find? session.handle = some ⟨session.nonceEven, session.secret⟩

/-- The caller's end of the session that a new simulator opens. -/
def first : Session := established 0x02000000 (Simulator.nonceAfter 0) .oiap wellKnownSecret

theorem first_inSync : first.InSync Simulator.afterOiap :=
  ⟨rfl, HandleTable.find?_insert_self ..⟩

/-- The caller's end of the session that it opens next. -/
def second : Session := established 0x02000001 (Simulator.nonceAfter 1) .oiap wellKnownSecret

end Session

/-- The simulator with both sessions. -/
def Simulator.afterOiaps : Simulator := afterOiap.opened wellKnownSecret

theorem Session.first_inSync_afterOiaps : first.InSync Simulator.afterOiaps :=
  ⟨rfl, (Simulator.find?_opened_of_ne wellKnownSecret (by decide)).trans first_inSync.2⟩

theorem Session.second_inSync : second.InSync Simulator.afterOiaps :=
  ⟨rfl, HandleTable.find?_insert_self ..⟩

/-- The 26 bytes that ask for an object-specific session. -/
def OsapCommand.encoding (command : OsapCommand) : Bytes :=
  bigEndian 2 command.entityType.toNat ++ bigEndian 4 command.entityValue.toNat ++
    command.nonceOddOsap.bytes

theorem OsapCommand.encode_eq (command : OsapCommand) :
    Wire.encode command = .ok command.encoding := by
  simp [Wire.encode, Wire.layout, Wire.toValue, encoding, bind, Except.bind, pure, Except.pure]

theorem Request.decode_osap (command : OsapCommand) :
    decode Tag.request Ordinal.osap command.encoding = some (.ok (.osap command)) := by
  have hdecode := Wire.decode_append (OsapCommand.encode_eq command) []
  rw [List.append_nil] at hdecode
  change some ((orBadParameter (Wire.decode OsapCommand command.encoding)).map Request.osap) = _
  rw [hdecode]
  rfl

/-- What opening a session does for a client: the new session is in sync, and so are all that were,
under other handles. -/
def Session.Opens (session : Session) (before after : Simulator) : Prop :=
  session.InSync after ∧
    ∀ other : Session, other.InSync before → other.handle ≠ session.handle ∧ other.InSync after

/-- A session that was set up with what the simulator handed out. -/
theorem Session.opens_established {before middle after : Simulator} {secret : Digest}
    (hissued : before.Issued) (hsessions : middle.sessions = before.sessions)
    (hnext : middle.nextSession = before.nextSession)
    (hafter : after.sessions = (middle.opened secret).sessions) (kind : SessionKind) :
    (Session.established middle.nextSession (Simulator.nonceAfter middle.nonceCounter) kind
      secret).Opens before after := by
  constructor
  · refine ⟨rfl, ?_⟩
    rw [hafter]
    exact HandleTable.find?_insert_self ..
  · rintro other ⟨halive, hfind⟩
    have hne : other.handle ≠ middle.nextSession := by
      intro heq
      have hlt := hissued.handle _ _ hfind
      rw [heq, hnext] at hlt
      exact UInt32.lt_irrefl _ hlt
    refine ⟨hne, halive, ?_⟩
    rw [hafter, Simulator.find?_opened_of_ne secret hne, hsessions]
    exact hfind

namespace Client

/-- If a handshake succeeds, the table had room, and the client has what the device handed out. -/
theorem handshake_eq_ok {ordinal : UInt32} {input : List Field} {body bytes : Bytes}
    {request : Request} {α : Type} [Wire α] {response : α}
    {initial values : FieldKind.Values [.ofWire α]} {returnCode : UInt32}
    {sim refused next : Simulator} {limit : Nat} {after : Client Simulator}
    (hframe : CommandHeader.frame Tag.request ordinal input =
      .ok (CommandHeader.message Tag.request ordinal body))
    (hdecode : Request.decode Tag.request ordinal body = some (.ok request))
    (hrun : (sim.logged ordinal).run request =
      some (if sim.maxSessions ≤ sim.sessions.size then (.error .resources, refused)
        else (.ok bytes, next)))
    (hbytes : Wire.encode response = .ok bytes)
    (hlength : 0 < bytes.length ∧ headerSize + bytes.length < 0x100000000)
    (h : submit Tag.request ordinal input [.ofWire α] initial ⟨sim, limit⟩ =
      some (.ok (returnCode, values), after)) :
    Wire.ofValue values.1 = response ∧ after.device = { next with pending := none } := by
  have hcases : ∀ result final, (sim.logged ordinal).run request = some (result, final) →
      result = .error .resources ∨ result = .ok bytes ∧ final = next := by
    intro result final heq
    rw [hrun] at heq
    split at heq
    · cases heq
      exact .inl rfl
    · cases heq
      exact .inr ⟨rfl, rfl⟩
  have hcode : ∀ code final, (sim.logged ordinal).run request = some (.error code, final) →
      code ≠ .success := by
    intro code final heq
    rcases hcases _ _ heq with hrefused | ⟨hok, _⟩
    · cases hrefused
      decide
    · cases hok
  have hbody : ∀ answer final, (sim.logged ordinal).run request = some (.ok answer, final) →
      answer ≠ [] ∧ headerSize + answer.length < 0x100000000 := by
    intro answer final heq
    rcases hcases _ _ heq with hrefused | ⟨hok, _⟩
    · cases hrefused
    · cases hok
      exact ⟨List.ne_nil_of_length_pos hlength.1, hlength.2⟩
  obtain ⟨answer, final, heq, hvalues, hafter⟩ := submit_run_eq_ok hframe hdecode hcode hbody h
  rcases hcases _ _ heq with hrefused | ⟨hok, rfl⟩
  · cases hrefused
  · cases hok
    have hread := Field.toExcept_fillAll (Field.encode_ofWire hbytes) initial
    cases hvalues.symm.trans hread
    exact ⟨Wire.ofValue_toValue response, hafter⟩

theorem startOiap_opens {sim : Simulator} {limit : Nat} {session : Session}
    {after : Client Simulator} (hissued : sim.Issued)
    (h : startOiap wellKnownSecret ⟨sim, limit⟩ = some (.ok session, after)) :
    session.Opens sim after.device := by
  obtain ⟨response, last, hoiap, h⟩ := bind_eq_ok h
  cases h
  obtain ⟨⟨_, values⟩, last, hsubmit, h⟩ := bind_eq_ok hoiap
  cases h
  have hframe : CommandHeader.frame Tag.request Ordinal.oiap [] =
      .ok (CommandHeader.message Tag.request Ordinal.oiap []) := by
    rw [CommandHeader.frame_eq]
    rfl
  have hrun : (sim.logged Ordinal.oiap).run .oiap = some (sim.logged Ordinal.oiap).runOiap := rfl
  rw [Simulator.runOiap_eq] at hrun
  obtain ⟨hresponse, hdevice⟩ := handshake_eq_ok hframe rfl hrun
    (OiapResponse.encode_eq ⟨sim.nextSession, Simulator.nonceAfter sim.nonceCounter⟩)
    ⟨by simp, by simp [headerSize]⟩ hsubmit
  rw [hdevice]
  change (Session.ofOiap (Wire.ofValue values.1) wellKnownSecret).Opens _ _
  rw [hresponse]
  exact Session.opens_established hissued rfl rfl rfl .oiap

theorem startOsap_opens {sim : Simulator} {limit : Nat} {session : Session}
    {after : Client Simulator} {command : OsapCommand} (hissued : sim.Issued)
    (h : startOsap command wellKnownSecret ⟨sim, limit⟩ = some (.ok session, after)) :
    session.Opens sim after.device := by
  obtain ⟨response, last, hosap, h⟩ := bind_eq_ok h
  cases h
  obtain ⟨⟨_, values⟩, last, hsubmit, h⟩ := bind_eq_ok hosap
  cases h
  have hframe : CommandHeader.frame Tag.request Ordinal.osap [.ofWire command] =
      .ok (CommandHeader.message Tag.request Ordinal.osap command.encoding) := by
    rw [CommandHeader.frame_eq, Field.encode_ofWire (OsapCommand.encode_eq command)]
    exact if_pos (by simp [headerSize, OsapCommand.encoding])
  have hrun : (sim.logged Ordinal.osap).run (.osap command) =
    some ((sim.logged Ordinal.osap).runOsap command) := rfl
  rw [Simulator.runOsap_eq] at hrun
  obtain ⟨hresponse, hdevice⟩ := handshake_eq_ok hframe (Request.decode_osap command) hrun
    (OsapResponse.encode_eq ⟨sim.nextSession, Simulator.nonceAfter (sim.nonceCounter + 1),
      Simulator.nonceAfter sim.nonceCounter⟩)
    ⟨by simp, by simp [headerSize]⟩ hsubmit
  rw [hdevice]
  change (Session.ofOsap command (Wire.ofValue values.1) wellKnownSecret).Opens _ _
  rw [hresponse]
  exact @Session.opens_established sim (sim.logged Ordinal.osap).drawNonce.2 _ _ hissued rfl rfl
    rfl (.osap command.entityType command.entityValue)

end Client

end TrustedModule
