import TrustedModule.Proofs.Simulator.Handshakes
import TrustedModule.Proofs.Simulator.Requests
import TrustedModule.Proofs.Simulator.Settling

/-!
# Effects of commands

Every command is refused or accepted. A refusal leaves tables, registers and counters alone, but for
the nonce of an object-specific handshake that found the session table full. What an accepted
command does is up to its request, and falls into six cases.
-/

set_option autoImplicit false

namespace TrustedModule

namespace Request

/-- What a whole command asks for, if its header and its parameters can be read. -/
def ofCommand? (command : Bytes) : Option Request :=
  match Wire.decode CommandHeader command with
  | .error _ => none
  | .ok header =>
    (decode header.tag header.ordinal (command.drop headerSize)).bind Except.toOption

theorem ofCommand?_of_header {command : Bytes} {header : CommandHeader}
    (h : Wire.decode CommandHeader command = .ok header) :
    ofCommand? command =
      (decode header.tag header.ordinal (command.drop headerSize)).bind Except.toOption := by
  unfold ofCommand?
  rw [h]

theorem ofCommand?_eq_some {command : Bytes} {request : Request}
    (h : ofCommand? command = some request) :
    ∃ header, Wire.decode CommandHeader command = .ok header ∧
      decode header.tag header.ordinal (command.drop headerSize) = some (.ok request) := by
  cases hheader : Wire.decode CommandHeader command with
  | error error =>
    rw [ofCommand?, hheader] at h
    cases h
  | ok header =>
    rw [ofCommand?_of_header hheader] at h
    obtain ⟨result, hdecode, hresult⟩ := Option.bind_eq_some_iff.mp h
    cases result with
    | error code => cases hresult
    | ok other =>
      cases hresult
      exact ⟨header, rfl, hdecode⟩

theorem ofCommand?_message (tag : UInt16) (ordinal : UInt32) (body : Bytes) :
    ofCommand? (CommandHeader.message tag ordinal body) =
      (decode tag ordinal body).bind Except.toOption := by
  rw [ofCommand?_of_header (CommandHeader.decode_message ..), CommandHeader.drop_message]

/-- No command is answered with success because it could not be read. -/
theorem decode_ne_success {tag : UInt16} {ordinal : UInt32} {payload : Bytes} {code : ReturnCode}
    (h : decode tag ordinal payload = some (.error code)) : code ≠ .success := by
  unfold decode at h
  split at h
  · cases h
    decide
  · rename_i operation _
    split at h
    · cases h
      decide
    · cases operation with
      | oiap => cases h
      | osap =>
        rw [orBadParameter_eq_error (map_eq_error (Option.some.inj h))]
        decide
      | flushSpecific | pcrRead =>
        rw [orBadParameter_eq_error (Option.some.inj h)]
        decide
      | authorized command =>
        rw [decodeAuthorized_eq_error h]
        decide

end Request

namespace Simulator

/-! ## Refusals -/

/-- Neither the tables nor the registers have changed, and no handle was issued. -/
structure SameTables (before after : Simulator) : Prop where
  sessions : after.sessions = before.sessions
  keys : after.keys = before.keys
  registers : after.registers = before.registers
  nextSession : after.nextSession = before.nextSession
  nextKey : after.nextKey = before.nextKey

theorem SameTables.refl (sim : Simulator) : SameTables sim sim := ⟨rfl, rfl, rfl, rfl, rfl⟩

/-- What a refusal leaves behind. A nonce is drawn only for an object-specific handshake, which is
refused only because the table is full. -/
structure Refused (request? : Option Request) (before after : Simulator) : Prop
    extends SameTables before after where
  maxSessions : after.maxSessions = before.maxSessions
  handshake : ∀ command, request? = some (.osap command) →
    before.maxSessions ≤ before.openSessions ∧ after.nonceCounter = before.nonceCounter + 1
  otherwise : (∀ command, request? ≠ some (.osap command)) →
    after.nonceCounter = before.nonceCounter

/-- Nothing is left behind by any other request. -/
theorem Refused.of_not_osap {request? : Option Request} (sim : Simulator)
    (h : ∀ command, request? ≠ some (.osap command)) : Refused request? sim sim where
  toSameTables := .refl sim
  maxSessions := rfl
  handshake command heq := absurd heq (h command)
  otherwise _ := rfl

theorem runFlush_refused {handle resource : UInt32} {sim next : Simulator} {code : ReturnCode}
    (h : sim.runFlush handle resource = (.error code, next)) : code ≠ .success ∧ next = sim := by
  unfold runFlush at h
  split at h
  · split at h
    · cases h
    · cases h
      exact ⟨by decide, rfl⟩
  · split at h
    · split at h
      · cases h
      · cases h
        exact ⟨by decide, rfl⟩
    · cases h
      exact ⟨by decide, rfl⟩

theorem run_refused {request : Request} {sim next : Simulator} {code : ReturnCode}
    (h : sim.run request = some (.error code, next)) :
    code ≠ .success ∧ Refused (some request) sim next := by
  cases request with
  | oiap =>
    replace h := Option.some.inj h
    rw [runOiap_eq] at h
    split at h
    · cases h
      exact ⟨by decide, .of_not_osap sim nofun⟩
    · cases h
  | osap command =>
    replace h := Option.some.inj h
    rw [runOsap_eq] at h
    split at h
    · rename_i hfull
      cases h
      exact ⟨by decide, ⟨rfl, rfl, rfl, rfl, rfl⟩, rfl, fun _ _ => ⟨hfull, rfl⟩,
        fun hother => absurd rfl (hother command)⟩
    · cases h
  | flushSpecific handle resource =>
    obtain ⟨hcode, rfl⟩ := runFlush_refused (Option.some.inj h)
    exact ⟨hcode, .of_not_osap _ nofun⟩
  | pcrRead index =>
    obtain ⟨hresult, rfl⟩ := Prod.mk.inj (Option.some.inj h)
    cases hregister : sim.register? index.toNat with
    | none =>
      rw [hregister] at hresult
      cases hresult
      exact ⟨by decide, .of_not_osap _ nofun⟩
    | some value =>
      rw [hregister] at hresult
      cases hresult
  | authorized command keyHandle params blocks =>
    obtain rfl := runAuthorized_refused h
    exact ⟨runAuthorized_ne_success h, .of_not_osap _ nofun⟩

/-! ## Accepted requests -/

/-- The simulator after a command was done and before its blocks are answered: there is one more key
if the command loads one. -/
def performed (command : AuthorizedCommand) (sim : Simulator) : Simulator :=
  if command = .loadKey2 then sim.loadKey else sim

section Performed

variable (command : AuthorizedCommand) (sim : Simulator)

theorem performed_eq : sim.performed command =
    { sim with
      keys := (sim.performed command).keys
      nextKey := (sim.performed command).nextKey } := by
  unfold performed
  split <;> rfl

@[simp] theorem sessions_performed : (sim.performed command).sessions = sim.sessions := by
  rw [performed_eq]

@[simp] theorem registers_performed : (sim.performed command).registers = sim.registers := by
  rw [performed_eq]

@[simp] theorem nextSession_performed : (sim.performed command).nextSession = sim.nextSession := by
  rw [performed_eq]

@[simp] theorem nonceCounter_performed :
    (sim.performed command).nonceCounter = sim.nonceCounter := by
  rw [performed_eq]

@[simp] theorem maxSessions_performed : (sim.performed command).maxSessions = sim.maxSessions := by
  rw [performed_eq]

end Performed

/-- A command that is done gives out the handle of the key that it loaded. -/
theorem perform_eq_ok {command : AuthorizedCommand} {params : Bytes} {sim next : Simulator}
    {output : Output} (h : sim.perform command params = some (.ok output, next)) :
    next = sim.performed command ∧
      (command = .loadKey2 → output.handles = bigEndian 4 sim.nextKey.toNat) := by
  by_cases hload : command = .loadKey2
  · subst hload
    unfold perform at h
    dsimp only at h
    split at h
    · cases h
    · cases h
      exact ⟨rfl, fun _ => rfl⟩
  · refine ⟨?_, fun heq => absurd heq hload⟩
    unfold performed
    rw [if_neg hload]
    obtain rfl | ⟨heq, _⟩ := perform_next h
    · rfl
    · exact absurd heq hload

/-- What accepted requests do: the bytes that they give out, and how they move the simulator. -/
inductive Effect : Request → Simulator → Bytes → Simulator → Prop
  | oiap {sim : Simulator} (hroom : sim.openSessions < sim.maxSessions) :
      Effect .oiap sim
        (bigEndian 4 sim.nextSession.toNat ++ (nonceAfter sim.nonceCounter).bytes)
        (sim.opened wellKnownSecret)
  | osap {sim : Simulator} (command : OsapCommand) (hroom : sim.openSessions < sim.maxSessions) :
      Effect (.osap command) sim
        (bigEndian 4 sim.nextSession.toNat ++ (nonceAfter (sim.nonceCounter + 1)).bytes ++
          (nonceAfter sim.nonceCounter).bytes)
        (sim.drawNonce.2.opened
          (sharedSecret wellKnownSecret (nonceAfter sim.nonceCounter) command.nonceOddOsap))
  | closeSession {sim : Simulator} {handle : Handle} {session : SimulatorSession}
      (hfind : sim.sessions.find? handle = some session) :
      Effect (.flushSpecific handle Resource.auth) sim []
        { sim with sessions := sim.sessions.erase handle }
  | unloadKey {sim : Simulator} {handle : Handle} (hkey : sim.hasKey handle = true) :
      Effect (.flushSpecific handle Resource.key) sim []
        { sim with keys := sim.keys.filter (· != handle) }
  | readRegister {sim : Simulator} {index : UInt32} {value : Digest}
      (hregister : sim.register? index.toNat = some value) :
      Effect (.pcrRead index) sim value.bytes sim
  | authorized {sim next : Simulator} {command : AuthorizedCommand} {keyHandle : Handle}
      {params body : Bytes} {blocks : List CommandAuth} (hkey : sim.hasKey keyHandle = true)
      (hauthentic : ∀ block ∈ blocks, sim.Authentic (commandDigest command.ordinal params) block)
      (hloaded : command = .loadKey2 → body.take 4 = bigEndian 4 sim.nextKey.toNat)
      (hsettles : Settles blocks (sim.performed command) next) :
      Effect (.authorized command keyHandle params blocks) sim body next

theorem run_accepted {request : Request} {sim next : Simulator} {body : Bytes}
    (h : sim.run request = some (.ok body, next)) : Effect request sim body next := by
  cases request with
  | oiap =>
    replace h := Option.some.inj h
    rw [runOiap_eq] at h
    split at h
    · cases h
    · rename_i hroom
      cases h
      exact .oiap (Nat.lt_of_not_le hroom)
  | osap command =>
    replace h := Option.some.inj h
    rw [runOsap_eq] at h
    split at h
    · cases h
    · rename_i hroom
      cases h
      exact .osap command (Nat.lt_of_not_le hroom)
  | flushSpecific handle resource =>
    replace h := Option.some.inj h
    unfold runFlush at h
    split at h
    · rename_i hauth
      subst hauth
      split at h
      · rename_i hopen
        obtain ⟨session, hfind⟩ := HandleTable.contains_iff.mp hopen
        cases h
        exact .closeSession hfind
      · cases h
    · split at h
      · rename_i hkind
        subst hkind
        split at h
        · rename_i hkey
          cases h
          exact .unloadKey hkey
        · cases h
      · cases h
  | pcrRead index =>
    obtain ⟨hresult, rfl⟩ := Prod.mk.inj (Option.some.inj h)
    cases hregister : sim.register? index.toNat with
    | none =>
      rw [hregister] at hresult
      cases hresult
    | some value =>
      rw [hregister] at hresult
      cases hresult
      exact .readRegister hregister
  | authorized command keyHandle params blocks =>
    obtain ⟨hkey, hauthentic, output, middle, answers, hperform, hanswers, rfl⟩ :=
      runAuthorized_eq_ok.mp h
    obtain ⟨rfl, hhandles⟩ := perform_eq_ok hperform
    refine .authorized hkey hauthentic ?_ (settles_of_answerAuths hanswers)
    intro hload
    rw [hhandles hload, List.append_assoc, List.take_left' (length_bigEndian 4 _)]

/-! ## Commands -/

/-- The simulator refuses a command, or does what it asks for and answers with success. -/
theorem execute_cases {command bytes : Bytes} {sim next : Simulator}
    (h : sim.execute command = some (bytes, next)) :
    (∃ tag code, code ≠ .success ∧ bytes = answer tag code [] ∧
      Refused (Request.ofCommand? command) sim next) ∨
    ∃ tag ordinal request body, Request.ofCommand? command = some request ∧
      bytes = answer tag .success body ∧ Effect request (sim.logged ordinal) body next := by
  cases hheader : Wire.decode CommandHeader command with
  | error error =>
    have hrequest : Request.ofCommand? command = none := by
      unfold Request.ofCommand?
      rw [hheader]
    rw [execute, hheader] at h
    cases h
    rw [hrequest]
    exact .inl ⟨_, _, by decide, rfl, .of_not_osap _ nofun⟩
  | ok header =>
    rw [execute_of_header hheader] at h
    rw [Request.ofCommand?_of_header hheader]
    obtain ⟨decoded, hdecode⟩ :=
      Request.exists_decode header.tag header.ordinal (command.drop headerSize)
    rw [hdecode] at h ⊢
    cases decoded with
    | error code =>
      cases h
      have hrefused : Refused none sim sim := .of_not_osap sim nofun
      exact .inl ⟨_, code, Request.decode_ne_success hdecode, rfl, { hrefused with }⟩
    | ok request =>
      obtain ⟨⟨result, final⟩, hrun, heq⟩ := Option.map_eq_some_iff.mp h
      cases result with
      | error code =>
        cases heq
        obtain ⟨hcode, hrefused⟩ := run_refused hrun
        exact .inl ⟨_, code, hcode, rfl, { hrefused with }⟩
      | ok body =>
        cases heq
        exact .inr ⟨_, _, request, body, rfl, rfl, run_accepted hrun⟩

/-! ## What a request amounts to -/

end Simulator

namespace Request

/-- How many sessions are opened. -/
def opens : Request → Nat
  | oiap | osap _ => 1
  | _ => 0

/-- How many sessions are flushed. -/
def flushes : Request → Nat
  | flushSpecific _ resource => if resource = Resource.auth then 1 else 0
  | _ => 0

/-- How many sessions are closed by blocks that ask for it. -/
def closes : Request → Nat
  | authorized _ _ _ blocks => blocks.countP fun block => !block.continueAuthSession
  | _ => 0

/-- How many keys are loaded. -/
def loads : Request → Nat
  | authorized .loadKey2 _ _ _ => 1
  | _ => 0

/-- How many nonces are drawn. -/
def draws : Request → Nat
  | oiap => 1
  | osap _ => 2
  | authorized _ _ _ blocks => blocks.length
  | _ => 0

theorem draws_le {command : Bytes} {request : Request} (h : ofCommand? command = some request) :
    request.draws ≤ 2 := by
  obtain ⟨header, _, hdecode⟩ := ofCommand?_eq_some h
  cases request with
  | oiap | osap | flushSpecific | pcrRead => simp [draws]
  | authorized which keyHandle params blocks =>
    exact Nat.le_trans (Nat.le_of_eq (length_of_decode hdecode)) which.authCount_le

end Request

namespace Simulator.Effect

variable {request : Request} {sim next : Simulator} {body : Bytes}

theorem registers_eq (h : Effect request sim body next) : next.registers = sim.registers := by
  cases h with
  | oiap | osap | closeSession | unloadKey | readRegister => rfl
  | authorized _ _ _ hsettles => rw [hsettles.next_eq, registers_performed]

theorem maxSessions_eq (h : Effect request sim body next) : next.maxSessions = sim.maxSessions := by
  cases h with
  | oiap | osap | closeSession | unloadKey | readRegister => rfl
  | authorized _ _ _ hsettles => rw [hsettles.next_eq, maxSessions_performed]

theorem nextSession_eq (h : Effect request sim body next) :
    next.nextSession = sim.nextSession + UInt32.ofNat request.opens := by
  cases h with
  | oiap | osap => rfl
  | closeSession | unloadKey | readRegister => exact (UInt32.add_zero _).symm
  | authorized _ _ _ hsettles =>
    rw [hsettles.next_eq, nextSession_performed]
    exact (UInt32.add_zero _).symm

theorem nextKey_eq (h : Effect request sim body next) :
    next.nextKey = sim.nextKey + UInt32.ofNat request.loads := by
  cases h with
  | oiap | osap | closeSession | unloadKey | readRegister => exact (UInt32.add_zero _).symm
  | @authorized _ _ command _ _ _ _ _ _ _ hsettles =>
    rw [hsettles.next_eq]
    cases command with
    | loadKey2 => rfl
    | sealData | unsealData | getPubKey | quote2 => exact (UInt32.add_zero _).symm

theorem nonceCounter_eq (h : Effect request sim body next) :
    next.nonceCounter = sim.nonceCounter + UInt32.ofNat request.draws := by
  cases h with
  | oiap => rfl
  | osap => exact UInt32.add_assoc _ 1 1
  | closeSession | unloadKey | readRegister => exact (UInt32.add_zero _).symm
  | authorized _ _ _ hsettles => rw [hsettles.nonceCounter_eq, nonceCounter_performed]; rfl

/-- The only new key has the next handle. -/
theorem key_cases (h : Effect request sim body next) {handle : Handle}
    (hkey : next.hasKey handle = true) :
    sim.hasKey handle = true ∨ request.loads = 1 ∧ handle = sim.nextKey := by
  cases h with
  | oiap | osap | closeSession | readRegister => exact .inl hkey
  | unloadKey =>
    unfold hasKey at hkey ⊢
    rw [List.contains_iff_mem, List.mem_filter] at hkey
    exact .inl (List.contains_iff_mem.mpr hkey.1)
  | @authorized _ _ command _ _ _ _ _ _ _ hsettles =>
    rw [hsettles.next_eq] at hkey
    cases command with
    | loadKey2 =>
      rcases List.mem_insert_iff.mp (List.contains_iff_mem.mp hkey) with rfl | hmem
      · exact .inr ⟨rfl, rfl⟩
      · exact .inl (List.contains_iff_mem.mpr hmem)
    | sealData | unsealData | getPubKey | quote2 => exact .inl hkey

/-- The only new session has the next handle. -/
theorem session_cases (h : Effect request sim body next) {handle : Handle}
    {session : SimulatorSession} (hfind : next.sessions.find? handle = some session) :
    (∃ before, sim.sessions.find? handle = some before) ∨
      request.opens = 1 ∧ handle = sim.nextSession := by
  cases h with
  | oiap | osap =>
    rcases HandleTable.find?_insert_eq_some.mp hfind with ⟨rfl, _⟩ | ⟨_, hbefore⟩
    · exact .inr ⟨rfl, rfl⟩
    · exact .inl ⟨session, hbefore⟩
  | closeSession => exact .inl ⟨session, (HandleTable.find?_erase_eq_some.mp hfind).2⟩
  | unloadKey | readRegister => exact .inl ⟨session, hfind⟩
  | @authorized _ _ _ _ _ _ blocks _ _ _ hsettles =>
    left
    by_cases hmem : handle ∈ blocks.map CommandAuth.authHandle
    · obtain ⟨block, hblock, rfl⟩ := List.mem_map.mp hmem
      obtain ⟨before, hbefore⟩ := hsettles.open_of_mem hblock
      exact ⟨before, sessions_performed .. ▸ hbefore⟩
    · rw [hsettles.find?_of_not_mem hmem, sessions_performed] at hfind
      exact ⟨session, hfind⟩

/-- The balance of the sessions, as long as the next handle is not in use. -/
theorem openSessions_eq (h : Effect request sim body next)
    (hnew : sim.sessions.find? sim.nextSession = none) :
    next.openSessions + request.flushes + request.closes = sim.openSessions + request.opens := by
  cases h with
  | oiap =>
    rw [openSessions_opened _ hnew]
    rfl
  | osap =>
    have hdrawn : sim.drawNonce.2.sessions.find? sim.drawNonce.2.nextSession = none := hnew
    rw [openSessions_opened _ hdrawn]
    rfl
  | closeSession hfind => exact HandleTable.size_erase hfind
  | unloadKey | readRegister => rfl
  | authorized _ _ _ hsettles =>
    have hsize := hsettles.size_eq
    rw [sessions_performed] at hsize
    exact hsize

/-- Sessions are opened only while there is room. -/
theorem openSessions_le (h : Effect request sim body next)
    (hnew : sim.sessions.find? sim.nextSession = none)
    (hle : sim.openSessions ≤ sim.maxSessions) : next.openSessions ≤ next.maxSessions := by
  have hbalance := h.openSessions_eq hnew
  rw [h.maxSessions_eq]
  cases h with
  | oiap hroom | osap _ hroom =>
    simp only [Request.opens, Request.flushes, Request.closes] at hbalance
    omega
  | closeSession | unloadKey | readRegister | authorized =>
    simp only [Request.opens] at hbalance
    omega

/-- A session is given out under the next handle. -/
theorem handle_of_opens (h : Effect request sim body next) (hopens : request.opens = 1) :
    body.take 4 = bigEndian 4 sim.nextSession.toNat := by
  cases h with
  | oiap => exact List.take_left' (length_bigEndian 4 _)
  | osap =>
    rw [List.append_assoc]
    exact List.take_left' (length_bigEndian 4 _)
  | closeSession | unloadKey | readRegister | authorized => cases hopens

/-- A key is given out under the next handle. -/
theorem handle_of_loads (h : Effect request sim body next) (hloads : request.loads = 1) :
    body.take 4 = bigEndian 4 sim.nextKey.toNat := by
  cases h with
  | oiap | osap | closeSession | unloadKey | readRegister => cases hloads
  | @authorized _ _ command _ _ _ _ _ _ hloaded _ =>
    cases command with
    | loadKey2 => exact hloaded rfl
    | sealData | unsealData | getPubKey | quote2 => cases hloads

end Simulator.Effect

end TrustedModule
