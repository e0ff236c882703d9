import TrustedModule.Proofs.Authorization.Binding
import TrustedModule.Proofs.Exchange.Calls
import TrustedModule.Proofs.Exchange.Opening
import TrustedModule.Proofs.Exchange.Synchrony

/-!
# Sealing and unsealing

What is sealed under a loaded key comes back whole when it is unsealed under that key. A client that
has too little room for an answer gets an error that names the room it needs, and no part of the
blob or of the secret.
-/

set_option autoImplicit false

namespace TrustedModule

/-- The block that a session in sync makes for parameters is one that the device accepts. -/
theorem Session.authentic_authorize {sim : Simulator} {session : Session} {fields : List Field}
    {params : Bytes} (hsync : session.InSync sim) (hparams : Field.encode fields = .ok params)
    (ordinal : UInt32) (nonceOdd : Digest) :
    ∃ block, (session.authorize ordinal fields nonceOdd).1 = .ok block ∧
      block.authHandle = session.handle ∧
      sim.Authentic (commandDigest ordinal params) block := by
  obtain ⟨halive, hfind⟩ := hsync
  have hblock := congrArg Prod.fst (authorize_of_encode halive hparams ordinal nonceOdd)
  exact ⟨_, hblock, rfl, _, hfind, rfl⟩

namespace Client

/-- The call returns a good result to every client with room for `bound` bytes, as far as there are
buffers of that size, and to a client with less room it says how much it needs. -/
def ReturnsWithin {α : Type} (call : Exchange Simulator α) (sim : Simulator) (bound : Nat)
    (good : α → Prop) : Prop :=
  (∀ limit, bound ≤ limit → limit < bufferLimit →
    ∃ a after, call ⟨sim, limit⟩ = some (.ok a, after) ∧ good a) ∧
  ∀ limit, headerSize ≤ limit → limit < bound →
    ∃ after, call ⟨sim, limit⟩ = some (.error (.underflow bound limit), after)

/-- A command that is authorized and can be done is done, and the answer settles each of the
sessions. -/
theorem submit_accepted {command : AuthorizedCommand} {fields : List Field} {params : Bytes}
    {keyHandle : Handle} {blocks : List CommandAuth} {sim : Simulator} {output : Simulator.Output}
    (hfields : ∀ field ∈ fields, field.kind.policy ≠ .remainder)
    (hparams : Field.encode fields = .ok params) (hcount : blocks.length = command.authCount)
    (hsize : headerSize + (AuthorizedCommand.body keyHandle params blocks).length < 0x100000000)
    (hkey : sim.hasKey keyHandle = true)
    (hdistinct : (blocks.map CommandAuth.authHandle).Nodup)
    (hauthentic : ∀ block ∈ blocks, sim.Authentic (commandDigest command.ordinal params) block)
    (hperform : (sim.logged command.ordinal).perform command params =
      some (.ok output, sim.logged command.ordinal)) :
    ∃ answers next,
      List.Forall₂ (Simulator.Settled (responseDigest 0 command.ordinal output.params) sim next)
        blocks answers ∧
      ∀ (kinds : List FieldKind) (initial : FieldKind.Values kinds) (limit : Nat),
        limit < bufferLimit →
        ∃ after, submit command.tag command.ordinal
            (.u32 keyHandle :: fields ++ blocks.map .ofWire) kinds initial ⟨sim, limit⟩ =
          some (outcome limit kinds initial (.ok (output.handles ++ output.params ++
            answers.flatMap ResponseAuth.encoding)), after) := by
  have hopen : ∀ block ∈ blocks, ∃ session,
      (sim.logged command.ordinal).sessions.find? block.authHandle = some session := by
    intro block hmem
    obtain ⟨session, hfind, _⟩ := hauthentic block hmem
    exact ⟨session, hfind⟩
  obtain ⟨answers, next, hanswer⟩ := Simulator.exists_answerAuths
    (responseDigest 0 command.ordinal output.params) hdistinct hopen
  have hrun : (sim.logged command.ordinal).runAuthorized command keyHandle params blocks =
      some (.ok (output.handles ++ output.params ++ answers.flatMap ResponseAuth.encoding),
        next) :=
    Simulator.runAuthorized_eq_ok.mpr
      ⟨hkey, hauthentic, output, _, answers, hperform, hanswer, rfl⟩
  refine ⟨answers, next, (Simulator.answerAuths_settled hanswer hdistinct).1, ?_⟩
  intro kinds initial limit hlimit
  rw [submit_authorized hfields hparams hcount hsize, if_pos hlimit, hrun]
  exact ⟨_, rfl⟩

/-- A command of one block that can be done under a session in sync: the session authorizes it, the
device does it, and the session believes the answer. -/
theorem submit_under_session {command : AuthorizedCommand} {fields : List Field} {params : Bytes}
    {keyHandle : Handle} {sim : Simulator} {session : Session} {output : Simulator.Output}
    (hfields : ∀ field ∈ fields, field.kind.policy ≠ .remainder)
    (hparams : Field.encode fields = .ok params) (hcount : command.authCount = 1)
    (hsize : headerSize + 4 + params.length + CommandAuth.wireLength < 0x100000000)
    (hkey : sim.hasKey keyHandle = true) (hsync : session.InSync sim)
    (hperform : (sim.logged command.ordinal).perform command params =
      some (.ok output, sim.logged command.ordinal)) (nonceOdd : Digest) :
    ∃ auth answer,
      session.authorize command.ordinal fields nonceOdd = (.ok auth, { session with nonceOdd }) ∧
      (∀ outFields, Field.encode outFields = .ok output.params →
        ({ session with nonceOdd } : Session).checkResponse command.ordinal outFields answer =
          (.ok (), ({ session with nonceOdd } : Session).roll answer)) ∧
      ∀ (kinds : List FieldKind) (initial : FieldKind.Values kinds) (limit : Nat),
        limit < bufferLimit →
        ∃ after, submit command.tag command.ordinal (.u32 keyHandle :: fields ++ [.ofWire auth])
            kinds initial ⟨sim, limit⟩ =
          some (outcome limit kinds initial (.ok (output.handles ++ output.params ++
            [answer].flatMap ResponseAuth.encoding)), after) := by
  have hauthorize := Session.authorize_of_encode hsync.1 hparams command.ordinal nonceOdd
  obtain ⟨auth, hauth, hhandle, hauthentic⟩ :=
    Session.authentic_authorize hsync hparams command.ordinal nonceOdd
  have hblock : auth = session.block command.ordinal params nonceOdd :=
    Except.ok.inj (hauth.symm.trans (congrArg Prod.fst hauthorize))
  rw [← hblock] at hauthorize
  have hlength : headerSize + (AuthorizedCommand.body keyHandle params [auth]).length <
      0x100000000 := by
    rw [AuthorizedCommand.length_body, List.length_singleton]
    omega
  have hblocks : ∀ block ∈ [auth],
      sim.Authentic (commandDigest command.ordinal params) block := by
    intro block hmem
    rw [List.mem_singleton.mp hmem]
    exact hauthentic
  obtain ⟨answers, next, hsettled, hsubmit⟩ := @submit_accepted command _ _ keyHandle [auth] _ _
    hfields hparams hcount.symm hlength hkey (by simp) hblocks hperform
  obtain ⟨answer, rfl⟩ := List.length_eq_one_iff.mp hsettled.length_eq.symm
  refine ⟨auth, answer, hauthorize, ?_, hsubmit⟩
  intro outFields hencode
  have hauthorized : ({ session with nonceOdd } : Session).InSync sim := hsync
  exact (Session.checkReply_of_settled hauthorized hhandle (by rw [hblock]; rfl) hencode
    (List.forall₂_cons.mp hsettled).1).1

/-- A handler that makes a good result of the body of an accepted command. -/
theorem returnsWithin_of_submit {α : Type} {tag : UInt16} {ordinal : UInt32} {input : List Field}
    {kinds : List FieldKind} {initial values : FieldKind.Values kinds}
    {finish : UInt32 × FieldKind.Values kinds → Exchange Simulator α}
    {call : Exchange Simulator α} {sim : Simulator} {body : Bytes} {good : α → Prop} {a : α}
    (hcall : call = submit tag ordinal input kinds initial >>= finish)
    (hsubmit : ∀ limit, limit < bufferLimit → ∃ after, submit tag ordinal input kinds initial
      ⟨sim, limit⟩ = some (outcome limit kinds initial (.ok body), after))
    (hbound : headerSize + body.length < bufferLimit)
    (hvalues : (FieldKind.fillAll kinds initial (Buffer.ofBytes body)).toExcept = .ok values)
    (hfinish : finish (0, values) = pure a) (hgood : good a) :
    ReturnsWithin call sim (headerSize + body.length) good := by
  subst hcall
  constructor
  · intro limit hlow hlimit
    obtain ⟨after, hsubmit⟩ := hsubmit limit hlimit
    rw [outcome_of_fits hlow, hvalues] at hsubmit
    refine ⟨a, after, ?_, hgood⟩
    rw [bind_of_ok hsubmit, hfinish]
    rfl
  · intro limit hlow hhigh
    obtain ⟨after, hsubmit⟩ := hsubmit limit (by omega)
    rw [outcome_of_short hlow hhigh] at hsubmit
    exact ⟨after, bind_of_error hsubmit⟩

end Client

/-! ## Parameters of the two commands -/

/-- The encoding of the register information, or nothing. -/
def sealInfo (pcrInfo : Option PcrInfoLong) : Except Error Bytes :=
  pcrInfo.elim (.ok []) Wire.encode

theorem exists_sealInfo {pcrInfo : Option PcrInfoLong}
    (hmasks : ∀ info, pcrInfo = some info → info.creationPcrSelection.mask.length ≤ 65535 ∧
      info.releasePcrSelection.mask.length ≤ 65535) :
    ∃ bytes, sealInfo pcrInfo = .ok bytes := by
  cases pcrInfo with
  | none => exact ⟨[], rfl⟩
  | some info =>
    obtain ⟨hcreation, hrelease⟩ := hmasks info rfl
    simp only [sealInfo, Option.elim_some, Wire.encode, Wire.layout, Wire.toValue,
      Layout.encode_record, Layout.encode_field, Layout.encode_u16, Layout.encode_u8,
      Layout.encode_mask, Layout.encode_block, Layout.encode_done]
    rw [if_pos (by omega), if_pos (by omega)]
    exact ⟨_, rfl⟩

/-- The bytes of the parameters of Seal. -/
def sealParams (encAuth : Digest) (info data : Bytes) : Bytes :=
  encAuth.bytes ++ ((bigEndian 4 info.length ++ info) ++ ((bigEndian 4 data.length ++ data) ++ []))

theorem length_sealParams (encAuth : Digest) (info data : Bytes) :
    (sealParams encAuth info data).length = 28 + info.length + data.length := by
  simp only [sealParams, List.length_append, length_bigEndian, Block.length_bytes, List.length_nil]
  omega

theorem encode_sealParams {command : SealCommand} {pcrInfo : Option PcrInfoLong}
    {info data : Bytes} (hinfo : sealInfo pcrInfo = .ok info) (hsize : info.length < 0x100000000)
    (hdata : data.length < 0x100000000) :
    Field.encode (Parameters.sealData command pcrInfo data) =
      .ok (sealParams command.encAuth info data) := by
  have hlast : FieldKind.encode .sized data = .ok (bigEndian 4 data.length ++ data) :=
    (Layout.encode_sized data).trans (if_pos hdata)
  cases pcrInfo with
  | none =>
    cases hinfo
    exact Field.encode_eq_ok.mpr ⟨rfl, append_eq_ok.mpr ⟨_, _, rfl, append_eq_ok.mpr
      ⟨_, _, rfl, append_eq_ok.mpr ⟨_, [], hlast, rfl, rfl⟩, rfl⟩, rfl⟩⟩
  | some pcrInfo =>
    have hstructure : FieldKind.encode (.sizedPlain (Wire.layout PcrInfoLong))
        (Wire.toValue pcrInfo) = .ok (bigEndian 4 info.length ++ info) := by
      rw [FieldKind.encode_sizedPlain]
      change (Wire.encode pcrInfo).bind _ = _
      rw [show Wire.encode pcrInfo = .ok info from hinfo]
      exact if_pos hsize
    exact Field.encode_eq_ok.mpr ⟨rfl, append_eq_ok.mpr ⟨_, _, rfl, append_eq_ok.mpr
      ⟨_, _, hstructure, append_eq_ok.mpr ⟨_, [], hlast, rfl, rfl⟩, rfl⟩, rfl⟩⟩

theorem Request.readParams_of_reads {α : Type} {read : BufferM α} {a : α} {params : Bytes}
    (h : Buffer.Reads read a params) : readParams read params = .ok a := by
  have hread := readParams_append h []
  rwa [List.append_nil] at hread

namespace Simulator

/-- The device takes the parameters of Seal apart, and wraps the data as it stands. -/
theorem runSeal_sealParams (encAuth : Digest) {info data : Bytes}
    (hinfo : info.length < 0x100000000) (hdata : data.length < 0x100000000) :
    runSeal (sealParams encAuth info data) =
      .ok (StoredData.encoding ⟨StoredData.sealedVersion, info, data⟩) := by
  have hencode : Wire.encode (⟨StoredData.sealedVersion, info, data⟩ : StoredData) = _ :=
    StoredData.encode_eq_ok.mpr ⟨hinfo, hdata, rfl⟩
  unfold runSeal sealParams
  refine bind_eq_ok.mpr ⟨⟨StoredData.sealedVersion, info, data⟩, ?_,
    Request.orBadParameter_eq_ok.mpr hencode⟩
  exact Request.readParams_of_reads ((Buffer.reads_block encAuth).bind
    ((Buffer.reads_sized hinfo).bind ((Buffer.reads_sized hdata).bind (Buffer.reads_pure _))))

theorem perform_sealParams (encAuth : Digest) {info data : Bytes}
    (hinfo : info.length < 0x100000000) (hdata : data.length < 0x100000000) (sim : Simulator) :
    sim.perform .sealData (sealParams encAuth info data) =
      some (.ok { params := StoredData.encoding ⟨StoredData.sealedVersion, info, data⟩ }, sim) := by
  unfold perform
  simp only [runSeal_sealParams encAuth hinfo hdata]
  rfl

/-- The device opens a blob that was sealed. -/
theorem runUnseal_encoding {info data : Bytes} (hinfo : info.length < 0x100000000)
    (hdata : data.length < 0x100000000) :
    runUnseal (StoredData.encoding ⟨StoredData.sealedVersion, info, data⟩) =
      .ok (bigEndian 4 data.length ++ data) := by
  have hencode : Wire.encode (⟨StoredData.sealedVersion, info, data⟩ : StoredData) = _ :=
    StoredData.encode_eq_ok.mpr ⟨hinfo, hdata, rfl⟩
  have hdecode := Wire.decode_append hencode []
  rw [List.append_nil] at hdecode
  exact runUnseal_eq_ok.mpr ⟨_, hdecode, rfl, rfl⟩

theorem perform_encoding {info data : Bytes} (hinfo : info.length < 0x100000000)
    (hdata : data.length < 0x100000000) (sim : Simulator) :
    sim.perform .unsealData (StoredData.encoding ⟨StoredData.sealedVersion, info, data⟩) =
      some (.ok { params := bigEndian 4 data.length ++ data }, sim) := by
  unfold perform
  simp only [runUnseal_encoding hinfo hdata]
  rfl

end Simulator

/-! ## Seal and Unseal -/

namespace Client

/-- What Seal returns under a session in sync; the answer has 63 bytes beside the information and
the data. -/
theorem sealData_returns {command : SealCommand} {pcrInfo : Option PcrInfoLong} {info data : Bytes}
    {sim : Simulator} {session : Session} (hinfo : sealInfo pcrInfo = .ok info)
    (hsize : 87 + info.length + data.length < 0x100000000)
    (hkey : sim.hasKey command.keyHandle = true) (hsync : session.InSync sim) (nonceOdd : Digest) :
    ∃ auth, (session.authorize Ordinal.sealData (Parameters.sealData command pcrInfo data)
        nonceOdd).1 = .ok auth ∧
      ReturnsWithin (sealData command pcrInfo data auth) sim (63 + info.length + data.length)
        fun result => result.stored = ⟨StoredData.sealedVersion, info, data⟩ := by
  have hinfoSize : info.length < 0x100000000 := by omega
  have hdataSize : data.length < 0x100000000 := by omega
  have hparams := @encode_sealParams command _ _ _ hinfo hinfoSize hdataSize
  have hlength : headerSize + 4 + (sealParams command.encAuth info data).length +
      CommandAuth.wireLength < 0x100000000 := by
    rw [length_sealParams]
    simp only [headerSize, CommandAuth.wireLength]
    omega
  obtain ⟨auth, answer, hauthorize, _, hsubmit⟩ := @submit_under_session .sealData _ _
    command.keyHandle sim _ _ (Call.sealData command pcrInfo data).no_remainder_params hparams rfl
    hlength hkey hsync (Simulator.perform_sealParams command.encAuth hinfoSize hdataSize _) nonceOdd
  refine ⟨auth, congrArg Prod.fst hauthorize, ?_⟩
  let stored : StoredData := ⟨StoredData.sealedVersion, info, data⟩
  have hencode : Wire.encode stored = .ok stored.encoding :=
    StoredData.encode_eq_ok.mpr ⟨hinfoSize, hdataSize, rfl⟩
  have hbody := Call.encode_body (by simp [Field.ofWire, FieldKind.policy])
    (Field.encode_ofWire hencode) [answer]
  have hbound : 63 + info.length + data.length =
      headerSize + (stored.encoding ++ [answer].flatMap ResponseAuth.encoding).length := by
    rw [List.length_append, StoredData.length_encoding, ResponseAuth.length_encodings]
    simp only [headerSize, ResponseAuth.wireLength, List.length_singleton, stored]
    omega
  rw [hbound]
  exact returnsWithin_of_submit rfl (hsubmit _ _) (by rw [← hbound, bufferLimit]; omega)
    (Field.toExcept_fillAll hbody _) rfl rfl

/-- What Unseal returns under two sessions in sync; the answer has 96 bytes beside the secret. -/
theorem unsealData_returns {keyHandle : Handle} {info data : Bytes} {sim : Simulator}
    {keySession dataSession : Session} (hsize : 116 + info.length + data.length < 0x100000000)
    (hkey : sim.hasKey keyHandle = true) (hkeySync : keySession.InSync sim)
    (hdataSync : dataSession.InSync sim) (hne : keySession.handle ≠ dataSession.handle)
    (keyNonce dataNonce : Digest) :
    ∃ keyAuth dataAuth,
      (keySession.authorize Ordinal.unsealData
        (Parameters.unsealData ⟨StoredData.sealedVersion, info, data⟩) keyNonce).1 =
          .ok keyAuth ∧
      (dataSession.authorize Ordinal.unsealData
        (Parameters.unsealData ⟨StoredData.sealedVersion, info, data⟩) dataNonce).1 =
          .ok dataAuth ∧
      ReturnsWithin
        (unsealData keyHandle ⟨StoredData.sealedVersion, info, data⟩ keyAuth dataAuth) sim
        (96 + data.length) fun result => result.secret = data := by
  have hinfoSize : info.length < 0x100000000 := by omega
  have hdataSize : data.length < 0x100000000 := by omega
  let stored : StoredData := ⟨StoredData.sealedVersion, info, data⟩
  have hencode : Wire.encode stored = .ok stored.encoding :=
    StoredData.encode_eq_ok.mpr ⟨hinfoSize, hdataSize, rfl⟩
  have hparams : Field.encode (Parameters.unsealData stored) = .ok stored.encoding :=
    Field.encode_ofWire hencode
  obtain ⟨keyAuth, hkeyAuthorize, hkeyHandle, hkeyAuthentic⟩ :=
    Session.authentic_authorize hkeySync hparams Ordinal.unsealData keyNonce
  obtain ⟨dataAuth, hdataAuthorize, hdataHandle, hdataAuthentic⟩ :=
    Session.authentic_authorize hdataSync hparams Ordinal.unsealData dataNonce
  refine ⟨keyAuth, dataAuth, hkeyAuthorize, hdataAuthorize, ?_⟩
  have hperform := Simulator.perform_encoding hinfoSize hdataSize (sim.logged Ordinal.unsealData)
  have hlength : headerSize + (AuthorizedCommand.body keyHandle stored.encoding
      [keyAuth, dataAuth]).length < 0x100000000 := by
    rw [AuthorizedCommand.length_body, StoredData.length_encoding]
    simp only [headerSize, CommandAuth.wireLength, List.length_cons, List.length_nil, stored]
    omega
  have hdistinct : ([keyAuth, dataAuth].map CommandAuth.authHandle).Nodup := by
    simp [hkeyHandle, hdataHandle, hne]
  have hblocks : ∀ block ∈ [keyAuth, dataAuth],
      sim.Authentic (commandDigest Ordinal.unsealData stored.encoding) block := by
    intro block hmem
    rcases List.mem_pair.mp hmem with rfl | rfl
    · exact hkeyAuthentic
    · exact hdataAuthentic
  obtain ⟨answers, _, hsettled, hsubmit⟩ := @submit_accepted .unsealData _ _ keyHandle
    [keyAuth, dataAuth] _ _ (Call.unsealData keyHandle stored).no_remainder_params hparams rfl
    hlength hkey hdistinct hblocks hperform
  obtain ⟨keyAnswer, dataAnswer, rfl⟩ := List.length_eq_two.mp hsettled.length_eq.symm
  have hbound : 96 + data.length = headerSize + (bigEndian 4 data.length ++ data ++
      [keyAnswer, dataAnswer].flatMap ResponseAuth.encoding).length := by
    simp only [List.length_append, length_bigEndian, ResponseAuth.length_encodings, headerSize,
      ResponseAuth.wireLength, List.length_cons, List.length_nil]
    omega
  rw [hbound]
  refine returnsWithin_of_submit rfl (hsubmit _ _) (by rw [← hbound, bufferLimit]; omega)
    (Call.fill_unsealed data keyAnswer dataAnswer) (a := ⟨data, keyAnswer, dataAnswer⟩) ?_ rfl
  dsimp only
  rw [if_pos (UInt32.toNat_ofNat_of_lt' hdataSize)]
  rfl

/-- Unsealing gives back what was sealed. In every state of the device in which the key is loaded,
data is sealed whole under a session in sync, and in every state in which the key is loaded, the
blob is unsealed under two sessions in sync, and the secret is the data. Where there is too little
room for the answer, the error says how much it takes. -/
theorem unsealData_sealData {pcrInfo : Option PcrInfoLong}
    (hmasks : ∀ info, pcrInfo = some info → info.creationPcrSelection.mask.length ≤ 65535 ∧
      info.releasePcrSelection.mask.length ≤ 65535) (data : Bytes) :
    ∃ info, sealInfo pcrInfo = .ok info ∧
      (∀ (command : SealCommand) (sim : Simulator) (session : Session) (nonceOdd : Digest),
        87 + info.length + data.length < 0x100000000 → sim.hasKey command.keyHandle = true →
        session.InSync sim →
        ∃ auth, (session.authorize Ordinal.sealData (Parameters.sealData command pcrInfo data)
            nonceOdd).1 = .ok auth ∧
          ReturnsWithin (sealData command pcrInfo data auth) sim
            (63 + info.length + data.length)
            fun result => result.stored = ⟨0x01010000, info, data⟩) ∧
      ∀ (keyHandle : Handle) (later : Simulator) (keySession dataSession : Session)
        (keyNonce dataNonce : Digest),
        116 + info.length + data.length < 0x100000000 → later.hasKey keyHandle = true →
        keySession.InSync later → dataSession.InSync later →
        keySession.handle ≠ dataSession.handle →
        ∃ keyAuth dataAuth,
          (keySession.authorize Ordinal.unsealData
            (Parameters.unsealData ⟨0x01010000, info, data⟩) keyNonce).1 = .ok keyAuth ∧
          (dataSession.authorize Ordinal.unsealData
            (Parameters.unsealData ⟨0x01010000, info, data⟩) dataNonce).1 = .ok dataAuth ∧
          ReturnsWithin (unsealData keyHandle ⟨0x01010000, info, data⟩ keyAuth dataAuth) later
            (96 + data.length) fun result => result.secret = data := by
  obtain ⟨info, hinfo⟩ := exists_sealInfo hmasks
  refine ⟨info, hinfo, ?_, ?_⟩
  · intro command sim session nonceOdd hsize hkey hsync
    exact sealData_returns hinfo hsize hkey hsync nonceOdd
  · intro keyHandle later keySession dataSession keyNonce dataNonce hsize hkey hkeySync hdataSync
      hne
    exact unsealData_returns hsize hkey hkeySync hdataSync hne keyNonce dataNonce

/-- Information on two registers, for both states. -/
def boundInfo : PcrInfoLong :=
  { localityAtCreation := 1, localityAtRelease := 2
    creationPcrSelection := ⟨[1, 0, 2]⟩, releasePcrSelection := ⟨[1, 0, 2]⟩
    digestAtCreation := ⟨List.replicate 20 3, rfl⟩, digestAtRelease := ⟨List.replicate 20 4, rfl⟩ }

/-- Three bytes are sealed under the storage root key, bound to registers, and are unsealed under
two sessions. -/
theorem unsealData_sealData_bound : ∃ info, sealInfo (some boundInfo) = .ok info ∧
    (∃ auth, (Session.first.authorize Ordinal.sealData
        (Parameters.sealData ⟨Handle.storageRootKey, .zero 20⟩ (some boundInfo) [5, 6, 7])
        (.zero 20)).1 = .ok auth ∧
      ReturnsWithin
        (sealData ⟨Handle.storageRootKey, .zero 20⟩ (some boundInfo) [5, 6, 7] auth)
        Simulator.afterOiap 120 fun result => result.stored = ⟨0x01010000, info, [5, 6, 7]⟩) ∧
    ∃ keyAuth dataAuth,
      (Session.first.authorize Ordinal.unsealData
        (Parameters.unsealData ⟨0x01010000, info, [5, 6, 7]⟩) (.zero 20)).1 = .ok keyAuth ∧
      (Session.second.authorize Ordinal.unsealData
        (Parameters.unsealData ⟨0x01010000, info, [5, 6, 7]⟩) (.zero 20)).1 = .ok dataAuth ∧
      ReturnsWithin
        (unsealData Handle.storageRootKey ⟨0x01010000, info, [5, 6, 7]⟩ keyAuth dataAuth)
        Simulator.afterOiaps 99 fun result => result.secret = [5, 6, 7] := by
  obtain ⟨info, hinfo, hseal, hunseal⟩ := @unsealData_sealData (some boundInfo)
    (by
      rintro _ ⟨⟩
      decide) [5, 6, 7]
  have hlength : info.length = 54 := by
    have hbytes : (sealInfo (some boundInfo)).map List.length = .ok 54 := by decide +kernel
    rw [hinfo] at hbytes
    exact Except.ok.inj hbytes
  have hdistinct : Session.first.handle ≠ Session.second.handle := by decide
  have hsealed := hseal ⟨Handle.storageRootKey, .zero 20⟩ Simulator.afterOiap Session.first
    (.zero 20) (by rw [hlength]; decide) rfl Session.first_inSync
  have hunsealed := hunseal Handle.storageRootKey Simulator.afterOiaps Session.first Session.second
    (.zero 20) (.zero 20) (by rw [hlength]; decide) rfl Session.first_inSync_afterOiaps
    Session.second_inSync hdistinct
  rw [hlength] at hsealed
  exact ⟨info, hinfo, hsealed, hunsealed⟩

/-- A limit on answers can be more than any buffer holds; then even a device that would do the
command gives no answer. -/
theorem sealData_beyond_buffers :
    Simulator.afterOiap.Reachable ∧ Simulator.afterOiap.hasKey Handle.storageRootKey = true ∧
      Session.first.InSync Simulator.afterOiap ∧ 63 ≤ bufferLimit ∧
      ∃ auth, (Session.first.authorize Ordinal.sealData
          (Parameters.sealData ⟨Handle.storageRootKey, .zero 20⟩ none []) (.zero 20)).1 =
            .ok auth ∧
        sealData ⟨Handle.storageRootKey, .zero 20⟩ none [] auth
          ⟨Simulator.afterOiap, bufferLimit⟩ = none := by
  have hparams : Field.encode (Parameters.sealData ⟨Handle.storageRootKey, .zero 20⟩ none []) =
      .ok (sealParams (.zero 20) [] []) :=
    encode_sealParams rfl (by decide) (by decide)
  obtain ⟨auth, hauthorize, _⟩ :=
    Session.authentic_authorize Session.first_inSync hparams Ordinal.sealData (.zero 20)
  refine ⟨Simulator.reachable_afterOiap, rfl, Session.first_inSync, by decide, auth, hauthorize,
    bind_of_none ?_⟩
  have hlength : headerSize + (AuthorizedCommand.body Handle.storageRootKey
      (sealParams (.zero 20) [] []) [auth]).length < 0x100000000 := by
    rw [AuthorizedCommand.length_body, length_sealParams]
    simp only [headerSize, CommandAuth.wireLength, List.length_singleton, List.length_nil]
    omega
  have hsubmit := @submit_authorized .sealData _ _ Handle.storageRootKey [auth]
    [.ofWire StoredData, .ofWire ResponseAuth]
    (Call.sealData ⟨Handle.storageRootKey, .zero 20⟩ none []).no_remainder_params hparams rfl
    hlength (Wire.toValue (default : StoredData), Wire.toValue (default : ResponseAuth), ())
    Simulator.afterOiap bufferLimit
  rw [if_neg (Nat.lt_irrefl _)] at hsubmit
  exact hsubmit

end Client

end TrustedModule
