import TrustedModule.Proofs.Pcr.Selection
import TrustedModule.Proofs.Simulator.Decoding
import TrustedModule.Proofs.Simulator.Evolution
import TrustedModule.Proofs.Simulator.History

/-!
# Where the simulator halts

Only two commands make the simulator halt, and both have to pass all checks before: a Quote2 that
selects a register beyond the last one, and an Unseal of a sealed blob whose first block closes the
session that the second one names as well. Whatever else is written gets an answer, however short
or malformed it is: every part that is cut out of it is one that it has. That the reads of a buffer
stay inside it is the matter of `Proofs.Buffer.Indexing`.
-/

set_option autoImplicit false

namespace TrustedModule

/-! ## Commands in their parts -/

/-- The command is laid out as an authorized one: a header with the ordinal and with a tag for the
blocks, the key handle, the parameters, and the blocks. Nothing is asked of the declared length. -/
def AuthorizedCommand.Lays (which : AuthorizedCommand) (keyHandle : Handle) (params : Bytes)
    (blocks : List CommandAuth) (command : Bytes) : Prop :=
  ∃ (header : CommandHeader) (trailer : Bytes),
    command = header.encoding ++ (bigEndian 4 keyHandle.toNat ++ params ++ trailer) ∧
      header.ordinal = which.ordinal ∧ Tag.authCount header.tag = which.authCount ∧
      blocks.length = which.authCount ∧ CommandAuth.Spell blocks trailer

namespace Request

/-- The simulator sees an authorized command exactly in bytes that are laid out as one. -/
theorem ofCommand?_eq_authorized {command params : Bytes} {which : AuthorizedCommand}
    {keyHandle : Handle} {blocks : List CommandAuth} :
    ofCommand? command = some (.authorized which keyHandle params blocks) ↔
      which.Lays keyHandle params blocks command := by
  constructor
  · intro h
    obtain ⟨header, hheader, hdecode⟩ := ofCommand?_eq_some h
    obtain ⟨body, rfl⟩ := CommandHeader.decode_eq_ok.mp hheader
    rw [CommandHeader.drop_encoding] at hdecode
    obtain ⟨hordinal, htag, hdecode⟩ := decode_eq_authorized.mp hdecode
    obtain ⟨_, hcount, trailer, rfl, hspell⟩ := decodeAuthorized_eq_ok_iff.mp hdecode
    exact ⟨header, trailer, rfl, hordinal, htag, hcount, hspell⟩
  · rintro ⟨header, trailer, rfl, hordinal, htag, hcount, hspell⟩
    rw [ofCommand?_of_header (CommandHeader.decode_eq_ok.mpr ⟨_, rfl⟩),
      CommandHeader.drop_encoding, decode_eq_authorized.mpr ⟨hordinal, htag,
        decodeAuthorized_eq_ok_iff.mpr ⟨rfl, hcount, trailer, rfl, hspell⟩⟩]
    rfl

end Request

namespace Simulator

variable {sim : Simulator} {which : AuthorizedCommand} {keyHandle : Handle} {params : Bytes}
  {blocks : List CommandAuth}

/-! ## Quotes over registers that are not there -/

theorem registerValues?_eq_none {indices : List UInt32} :
    sim.registerValues? indices = none ↔
      ∃ index ∈ indices, sim.registers.length ≤ index.toNat := by
  unfold registerValues? register?
  induction indices with
  | nil => simp
  | cons index indices ih =>
    rw [List.mapM_cons, List.exists_mem_cons_iff, ← ih, ← List.getElem?_eq_none_iff]
    cases sim.registers[index.toNat]? with
    | none => simp
    | some value =>
      cases indices.mapM fun index => sim.registers[index.toNat]? <;> simp

/-- What a Quote2 asks for can be read exactly off these bytes. -/
theorem readQuote_eq_ok {externalData : Digest} {mask : Bytes} {addVersion : Bool} :
    Request.readParams readQuote params = .ok (externalData, ⟨mask⟩, addVersion) ↔
      mask.length < 0x10000 ∧ ∃ version rest, addVersion = (version != 0) ∧
        params = externalData.bytes ++ (bigEndian 2 mask.length ++ mask) ++ [version] ++ rest := by
  constructor
  · intro h
    obtain ⟨after, h⟩ := Request.readParams_eq_ok h
    obtain ⟨data, first, hdata, h⟩ := Buffer.bind_eq_ok h
    obtain ⟨bytes, second, hmask, h⟩ := Buffer.bind_eq_ok h
    obtain ⟨flag, third, hflag, h⟩ := Buffer.bind_eq_ok h
    cases h
    obtain ⟨hlength, hmask⟩ := Buffer.took_readMask hmask
    obtain ⟨version, hversion, hflag⟩ := Buffer.took_readFlag hflag
    have htook := ((Buffer.took_readBlock hdata).trans hmask).trans hflag
    exact ⟨hlength, version, after.ahead, hversion, htook.1⟩
  · rintro ⟨hlength, version, rest, rfl, rfl⟩
    have hflag : Buffer.Reads Buffer.readFlag (version != 0) [version] :=
      (Buffer.reads_u8 version).map (· != 0)
    have hreads : Buffer.Reads readQuote (externalData, ⟨mask⟩, version != 0)
        (externalData.bytes ++ (bigEndian 2 mask.length ++ mask ++ [version])) :=
      (Buffer.reads_block externalData).bind ((Buffer.reads_mask hlength).bind
        (hflag.map fun addVersion => (externalData, PcrSelection.mk mask, addVersion)))
    rw [← List.append_assoc] at hreads
    exact Request.readParams_append hreads rest

/-- Of the authorized commands only a quote halts the simulator before the blocks are answered. -/
theorem perform_eq_none :
    sim.perform which params = none ↔
      which = .quote2 ∧ ∃ externalData selection addVersion,
        Request.readParams readQuote params = .ok (externalData, selection, addVersion) ∧
          ∃ index ∈ selection.indices, sim.registers.length ≤ index.toNat := by
  cases which with
  | sealData | unsealData | getPubKey => simp [perform]
  | loadKey2 =>
    unfold perform
    dsimp only
    split <;> simp
  | quote2 =>
    unfold perform
    dsimp only
    cases Request.readParams readQuote params with
    | error code => simp
    | ok quote =>
      obtain ⟨externalData, selection, addVersion⟩ := quote
      simp [registerValues?_eq_none]

/-! ## Blocks whose session was closed -/

/-- Blocks of open sessions cannot be answered if one of them closes the session of a later one. -/
theorem answerAuths_eq_none {outDigest : Digest}
    (hopen : ∀ block ∈ blocks, ∃ session, sim.sessions.find? block.authHandle = some session) :
    answerAuths outDigest blocks sim = none ↔ ¬ blocks.Pairwise CommandAuth.Spares := by
  constructor
  · intro hnone hspares
    obtain ⟨answers, next, hanswer⟩ := exists_answerAuths_of_spares outDigest hspares hopen
    rw [hnone] at hanswer
    cases hanswer
  · intro hcloses
    cases hanswer : answerAuths outDigest blocks sim with
    | none => rfl
    | some result =>
      refine absurd (List.pairwise_iff_getElem.mpr ?_) hcloses
      intro i j hi hj hlt hsame
      exact (settles_of_answerAuths hanswer).keeps_of_later hlt (List.getElem?_eq_getElem hi)
        (List.getElem?_eq_getElem hj) hsame

/-- Only a command of two blocks can close a session too early. -/
theorem not_spares_iff (hcount : blocks.length = which.authCount) :
    ¬ blocks.Pairwise CommandAuth.Spares ↔
      which = .unsealData ∧ ∃ first second, blocks = [first, second] ∧
        second.authHandle = first.authHandle ∧ first.continueAuthSession = false := by
  cases which with
  | unsealData =>
    obtain ⟨first, second, rfl⟩ := List.length_eq_two.mp hcount
    simp [CommandAuth.Spares]
  | sealData | loadKey2 | getPubKey | quote2 =>
    obtain ⟨block, rfl⟩ := List.length_eq_one_iff.mp hcount
    simp

/-! ## Authorized commands -/

/-- A command halts the simulator only after all checks: when it is run, or when its blocks are
answered. -/
theorem runAuthorized_eq_none :
    sim.runAuthorized which keyHandle params blocks = none ↔
      sim.hasKey keyHandle = true ∧
      (∀ block ∈ blocks, sim.Authentic (commandDigest which.ordinal params) block) ∧
      (sim.perform which params = none ∨
        ∃ output middle, sim.perform which params = some (.ok output, middle) ∧
          answerAuths (responseDigest 0 which.ordinal output.params) blocks middle = none) := by
  rw [← and_assoc]
  by_cases hpassed : sim.hasKey keyHandle = true ∧
      ∀ block ∈ blocks, sim.Authentic (commandDigest which.ordinal params) block
  · rw [runAuthorized_of_passed hpassed.1 hpassed.2, and_iff_right hpassed]
    cases sim.perform which params with
    | none => simp
    | some outcome =>
      obtain ⟨_ | output, middle⟩ := outcome
      · simp [conclude]
      · simp [conclude]
  · obtain ⟨code, _, hrefused⟩ := runAuthorized_of_failed hpassed
    rw [hrefused]
    exact ⟨nofun, fun h => absurd h.1 hpassed⟩

/-- What makes a simulator of 24 registers halt at a command that has passed the checks. -/
inductive Traps : AuthorizedCommand → Bytes → List CommandAuth → Prop
  /-- A quote, over 20 bytes, a mask and a byte for the version, selects register 24 or a later
  one. -/
  | missingRegister {blocks : List CommandAuth} (externalData : Digest) (selection : PcrSelection)
      (version : UInt8) (rest : Bytes) {index : UInt32} (hmask : selection.mask.length < 0x10000)
      (hselected : selection.isSelected index = true) (hmissing : 24 ≤ index.toNat) :
      Traps .quote2
        (externalData.bytes ++ (bigEndian 2 selection.mask.length ++ selection.mask) ++
          [version] ++ rest) blocks
  /-- A sealed blob is opened under one session, and the first block closes it. -/
  | closedSession {first second : CommandAuth} (stored : StoredData) (rest : Bytes)
      (hsealInfo : stored.sealInfo.length < 0x100000000)
      (hencData : stored.encData.length < 0x100000000) (hversion : stored.version = 0x01010000)
      (hsame : second.authHandle = first.authHandle)
      (hcloses : first.continueAuthSession = false) :
      Traps .unsealData (stored.encoding ++ rest) [first, second]

theorem Traps.which_cases (h : Traps which params blocks) :
    which = .quote2 ∨ which = .unsealData := by
  cases h with
  | missingRegister => exact .inl rfl
  | closedSession => exact .inr rfl

theorem perform_eq_none_iff_traps (hregisters : sim.registers.length = 24) :
    sim.perform which params = none ↔ which = .quote2 ∧ Traps which params blocks := by
  rw [perform_eq_none, hregisters]
  constructor
  · rintro ⟨rfl, externalData, selection, addVersion, hread, index, hmem, hmissing⟩
    obtain ⟨hmask, version, rest, _, rfl⟩ := readQuote_eq_ok.mp hread
    have hselected := (PcrSelection.mem_indices (by omega)).mp hmem
    exact ⟨rfl, .missingRegister externalData selection version rest hmask hselected hmissing⟩
  · rintro ⟨rfl, externalData, selection, version, rest, hmask, hselected, hmissing⟩
    exact ⟨rfl, externalData, selection, _, readQuote_eq_ok.mpr ⟨hmask, version, rest, rfl, rfl⟩,
      _, (PcrSelection.mem_indices (by omega)).mpr hselected, hmissing⟩

theorem answers_eq_none_iff_traps (hcount : blocks.length = which.authCount)
    (hopen : ∀ block ∈ blocks, ∃ session, sim.sessions.find? block.authHandle = some session) :
    (∃ output middle, sim.perform which params = some (.ok output, middle) ∧
        answerAuths (responseDigest 0 which.ordinal output.params) blocks middle = none) ↔
      which = .unsealData ∧ Traps which params blocks := by
  constructor
  · rintro ⟨output, middle, hperform, hanswer⟩
    obtain ⟨rfl, _⟩ := perform_eq_ok hperform
    rw [answerAuths_eq_none (by rwa [sessions_performed]), not_spares_iff hcount] at hanswer
    obtain ⟨rfl, first, second, rfl, hsame, hcloses⟩ := hanswer
    obtain ⟨hrun, _⟩ := Prod.mk.inj (Option.some.inj hperform)
    obtain ⟨bytes, hrun, _⟩ := map_eq_ok hrun
    obtain ⟨stored, hdecode, hversion, _⟩ := runUnseal_eq_ok.mp hrun
    obtain ⟨hsealInfo, hencData, rest, rfl⟩ := StoredData.decode_eq_ok.mp hdecode
    exact ⟨rfl, .closedSession stored rest hsealInfo hencData hversion hsame hcloses⟩
  · rintro ⟨rfl, htraps⟩
    cases htraps with
    | @closedSession first second stored rest hsealInfo hencData hversion hsame hcloses =>
      have hrun := runUnseal_eq_ok.mpr
        ⟨stored, StoredData.decode_eq_ok.mpr ⟨hsealInfo, hencData, rest, rfl⟩, hversion, rfl⟩
      refine ⟨{ params := bigEndian 4 stored.encData.length ++ stored.encData }, sim, ?_, ?_⟩
      · unfold perform
        simp only [hrun]
        rfl
      · exact (answerAuths_eq_none hopen).mpr
          ((not_spares_iff hcount).mpr ⟨rfl, first, second, rfl, hsame, hcloses⟩)

theorem runAuthorized_eq_none_iff_traps (hregisters : sim.registers.length = 24)
    (hcount : blocks.length = which.authCount) :
    sim.runAuthorized which keyHandle params blocks = none ↔
      sim.hasKey keyHandle = true ∧
      (∀ block ∈ blocks, sim.Authentic (commandDigest which.ordinal params) block) ∧
      Traps which params blocks := by
  rw [runAuthorized_eq_none]
  refine and_congr_right fun _ => and_congr_right fun hauthentic => ?_
  have hopen : ∀ block ∈ blocks, ∃ session,
      sim.sessions.find? block.authHandle = some session := by
    intro block hmem
    obtain ⟨session, hfind, _⟩ := hauthentic block hmem
    exact ⟨session, hfind⟩
  rw [perform_eq_none_iff_traps hregisters, answers_eq_none_iff_traps hcount hopen, ← or_and_right]
  exact and_iff_right_of_imp Traps.which_cases

/-! ## All commands -/

theorem run_eq_none {request : Request} :
    sim.run request = none ↔ ∃ which keyHandle params blocks,
      request = .authorized which keyHandle params blocks ∧
        sim.runAuthorized which keyHandle params blocks = none := by
  cases request with
  | oiap | osap | flushSpecific | pcrRead => simp [run]
  | authorized which keyHandle params blocks =>
    constructor
    · intro h
      exact ⟨which, keyHandle, params, blocks, rfl, h⟩
    · rintro ⟨_, _, _, _, heq, h⟩
      cases heq
      exact h

theorem execute_eq_none {command : Bytes} :
    sim.execute command = none ↔ ∃ header request,
      Wire.decode CommandHeader command = .ok header ∧
      Request.decode header.tag header.ordinal (command.drop headerSize) = some (.ok request) ∧
      (sim.logged header.ordinal).run request = none := by
  cases hheader : Wire.decode CommandHeader command with
  | error error => simp [execute, hheader]
  | ok header =>
    rw [execute_of_header hheader]
    -- The header and the payload are there, so only a request can make the simulator halt.
    obtain ⟨decoded, hdecode⟩ :=
      Request.exists_decode header.tag header.ordinal (command.drop headerSize)
    cases decoded with
    | error code => simp [hdecode]
    | ok request => simp [hdecode]

/-- The command is an authorized one that passes the checks, and the simulator halts at it. -/
def Halts (sim : Simulator) (command : Bytes) : Prop :=
  ∃ which keyHandle params blocks, AuthorizedCommand.Lays which keyHandle params blocks command ∧
    sim.hasKey keyHandle = true ∧
    (∀ block ∈ blocks, sim.Authentic (commandDigest which.ordinal params) block) ∧
    Traps which params blocks

theorem execute_eq_none_iff_halts (hregisters : sim.registers.length = 24) (command : Bytes) :
    sim.execute command = none ↔ sim.Halts command := by
  have hlogged : ∀ ordinal, (sim.logged ordinal).registers.length = 24 := fun _ => hregisters
  rw [execute_eq_none]
  constructor
  · rintro ⟨header, request, hheader, hdecode, hrun⟩
    obtain ⟨which, keyHandle, params, blocks, rfl, hrun⟩ := run_eq_none.mp hrun
    have hlays : which.Lays keyHandle params blocks command := by
      rw [← Request.ofCommand?_eq_authorized, Request.ofCommand?_of_header hheader, hdecode]
      rfl
    exact ⟨which, keyHandle, params, blocks, hlays,
      (runAuthorized_eq_none_iff_traps (hlogged _) (Request.length_of_decode hdecode)).mp hrun⟩
  · rintro ⟨which, keyHandle, params, blocks, hlays, hcaught⟩
    obtain ⟨header, hheader, hdecode⟩ :=
      Request.ofCommand?_eq_some (Request.ofCommand?_eq_authorized.mpr hlays)
    have hrun := (runAuthorized_eq_none_iff_traps (hlogged header.ordinal)
      (Request.length_of_decode hdecode)).mpr hcaught
    exact ⟨header, _, hheader, hdecode,
      run_eq_none.mpr ⟨which, keyHandle, params, blocks, rfl, hrun⟩⟩

/-- Whatever bytes are written after any history, the simulator halts exactly at an authorized
command that passes the checks and then quotes a register that is not there, or opens a blob under a
session that its first block closes. It answers all others. Counters and tags start over here, so
nothing is asked of them. -/
theorem write_eq_none_iff {events : List Event} (hhistory : History {} events sim)
    (command : Bytes) :
    (Device.write command sim = none ↔ sim.Halts command) ∧
      (¬ sim.Halts command → ∃ next tag code body,
        Device.write command sim = some (.ok command.length, next) ∧
          next.pending = some (answer tag code body)) := by
  have hregisters : sim.registers.length = 24 := by
    rw [hhistory.registers_eq, List.length_map, List.length_range]
  have hhalts := execute_eq_none_iff_halts hregisters command
  refine ⟨?_, fun hlives => ?_⟩
  · rw [← hhalts]
    exact Option.map_eq_none_iff
  · obtain ⟨⟨bytes, next⟩, hexecute⟩ := Option.ne_none_iff_exists'.mp fun hnone =>
      hlives (hhalts.mp hnone)
    have hwrite : Device.write command sim =
        some (.ok command.length, { next with pending := some bytes }) := by
      simp only [Device.write, hexecute, Option.map_some]
    rcases execute_cases hexecute with ⟨tag, code, _, rfl, _⟩ | ⟨tag, _, _, body, _, rfl, _⟩
    · exact ⟨_, tag, code, [], hwrite, rfl⟩
    · exact ⟨_, tag, .success, body, hwrite, rfl⟩

/-- A blob that the simulator could have sealed. -/
def sealedBlob : Bytes := StoredData.encoding {}

/-- A block for an Unseal of that blob, under the session of `afterOiap`. -/
def unsealBlock (continueAuthSession : Bool) : CommandAuth :=
  { authHandle := 0x02000000
    nonceOdd := .zero 20
    continueAuthSession
    auth := authDigest wellKnownSecret.bytes (commandDigest Ordinal.unsealData sealedBlob)
      (nonceAfter 0) (.zero 20) continueAuthSession }

/-- An Unseal of that blob with two blocks for one session, which the first one closes. -/
def closingUnseal : Bytes :=
  CommandHeader.message Tag.request2 Ordinal.unsealData
    (AuthorizedCommand.body Handle.storageRootKey sealedBlob [unsealBlock false, unsealBlock true])

theorem write_eq_none_iff_unseal :
    Device.write closingUnseal afterOiap = none ∧ ¬ afterOiap.Halts [] := by
  have hhistory : History {} _ afterOiap := .cons .nil (act_of_write write_oiap)
  refine ⟨(write_eq_none_iff hhistory closingUnseal).1.mpr ?_, fun hhalts => ?_⟩
  · have hlays : AuthorizedCommand.unsealData.Lays Handle.storageRootKey sealedBlob
        [unsealBlock false, unsealBlock true] closingUnseal := by
      have hcount : [unsealBlock false, unsealBlock true].length =
          AuthorizedCommand.unsealData.authCount := rfl
      rw [← Request.ofCommand?_eq_authorized, closingUnseal, Request.ofCommand?_message]
      exact congrArg (Option.bind · Except.toOption) (Request.decode_body hcount _ _)
    have hauthentic : ∀ continueAuthSession, afterOiap.Authentic
        (commandDigest Ordinal.unsealData sealedBlob) (unsealBlock continueAuthSession) :=
      fun _ => ⟨⟨nonceAfter 0, wellKnownSecret⟩, rfl, rfl⟩
    have htraps : Traps .unsealData (sealedBlob ++ []) [unsealBlock false, unsealBlock true] :=
      .closedSession {} [] (by decide) (by decide) rfl rfl rfl
    rw [List.append_nil] at htraps
    exact ⟨_, _, _, _, hlays, rfl, List.forall_mem_cons.mpr
      ⟨hauthentic false, List.forall_mem_singleton.mpr (hauthentic true)⟩, htraps⟩
  · cases (write_eq_none_iff hhistory []).1.mpr hhalts

end Simulator

end TrustedModule
