import TrustedModule.Proofs.Exchange.Delivery
import TrustedModule.Proofs.Exchange.Sealing
import TrustedModule.Proofs.Exchange.Staleness
import TrustedModule.Proofs.Exchange.Synchrony
import TrustedModule.Proofs.Pcr.Composite
import TrustedModule.Proofs.Pcr.Selection
import TrustedModule.Proofs.Simulator.Halting

/-!
# Quotes and register reads

A quote names the registers that it was asked for, and its digest is the composite of the values
that a reader of these registers gets, in ascending order. The client and the device walk the mask
each on its own, and the response is checked over what the client has read and encoded again.
-/

set_option autoImplicit false

namespace TrustedModule

/-! ## Registers -/

/-- The simulator has a value for each of the registers exactly if it has all the registers. -/
theorem Simulator.registerValues?_eq_some {sim : Simulator} {indices : List UInt32}
    {values : List Digest} :
    sim.registerValues? indices = some values ↔
      List.Forall₂ (fun index value => sim.register? index.toNat = some value) indices values := by
  unfold registerValues?
  induction indices generalizing values with
  | nil => cases values <;> simp
  | cons index indices ih =>
    rw [List.mapM_cons]
    cases hvalue : sim.register? index.toNat with
    | none => cases values <;> simp [hvalue]
    | some value =>
      cases hvalues : indices.mapM fun index => sim.register? index.toNat with
      | none => cases values <;> simp [hvalue, hvalues, ← ih]
      | some others => cases values <;> simp [hvalue, hvalues, ← ih]

namespace Client

/-- Reading a register that is there gives its value; the answer has 30 bytes. -/
theorem pcrRead_returns {sim : Simulator} {index : UInt32} {value : Digest}
    (h : sim.register? index.toNat = some value) :
    ReturnsWithin (pcrRead index) sim 30 (· = value) := by
  have hframe : CommandHeader.frame Tag.request Ordinal.pcrRead [.u32 index] =
      .ok (CommandHeader.message Tag.request Ordinal.pcrRead (bigEndian 4 index.toNat)) := by
    rw [CommandHeader.frame_eq]
    rfl
  have hdecode : Request.decode Tag.request Ordinal.pcrRead (bigEndian 4 index.toNat) =
      some (.ok (.pcrRead index)) :=
    congrArg some (Request.readParams_of_reads ((Buffer.reads_u32 index).map Request.pcrRead))
  have hrun : (sim.logged Ordinal.pcrRead).run (.pcrRead index) =
      some (.ok value.bytes, sim.logged Ordinal.pcrRead) := by
    have hregister : (sim.logged Ordinal.pcrRead).register? index.toNat = some value := h
    rw [Simulator.run, hregister]
    rfl
  have hsubmit : ∀ limit, limit < bufferLimit → ∃ after,
      submit Tag.request Ordinal.pcrRead [.u32 index] [.plain (.block 20)] (.zero 20, ())
        (⟨sim, limit⟩ : Client Simulator) =
          some (outcome limit [.plain (.block 20)] (.zero 20, ()) (.ok value.bytes), after) := by
    intro limit hlimit
    rw [submit_run hframe hdecode, if_pos hlimit, hrun]
    · exact ⟨_, rfl⟩
    · intro code next hrefused
      rw [hrun] at hrefused
      cases hrefused
    · intro body next haccepted
      rw [hrun] at haccepted
      cases haccepted
      refine ⟨List.ne_nil_of_length_pos ?_, ?_⟩
      · rw [value.length_bytes]
        decide
      · rw [value.length_bytes]
        decide
  have hencode : Field.encode [⟨.plain (.block 20), value⟩] = .ok value.bytes :=
    Field.encode_eq_ok.mpr ⟨rfl, append_eq_ok.mpr ⟨_, [], rfl, rfl, (List.append_nil _).symm⟩⟩
  have hbound : headerSize + value.bytes.length = 30 := by rw [value.length_bytes, headerSize]
  rw [← hbound]
  exact returnsWithin_of_submit rfl hsubmit (by rw [hbound]; decide)
    (Field.toExcept_fillAll hencode _) rfl rfl

end Client

/-! ## Parameters and outputs of Quote2 -/

/-- The bytes of the parameters of Quote2. -/
def quoteParams (externalData : Digest) (selection : PcrSelection) (addVersion : Bool) : Bytes :=
  externalData.bytes ++ selection.encoding ++ [if addVersion then 1 else 0]

theorem length_quoteParams (externalData : Digest) (selection : PcrSelection)
    (addVersion : Bool) :
    (quoteParams externalData selection addVersion).length = 23 + selection.mask.length := by
  simp only [quoteParams, List.length_append, Block.length_bytes, PcrSelection.length_encoding,
    List.length_singleton]
  omega

theorem encode_quoteParams {selection : PcrSelection} (hmask : selection.mask.length < 0x10000)
    (externalData : Digest) (addVersion : Bool) :
    Field.encode (Parameters.quote2 externalData selection addVersion) =
      .ok (quoteParams externalData selection addVersion) := by
  have hselection : Wire.encode selection = .ok selection.encoding :=
    PcrSelection.encode_eq_ok.mpr ⟨hmask, rfl⟩
  refine Field.encode_eq_ok.mpr ⟨rfl, append_eq_ok.mpr ⟨externalData.bytes, _, rfl,
    append_eq_ok.mpr ⟨_, _, hselection, append_eq_ok.mpr ⟨[if addVersion then 1 else 0], [], rfl,
      rfl, rfl⟩, rfl⟩, ?_⟩⟩
  rw [quoteParams, List.append_nil, List.append_assoc]

/-- The register information, the version blob and the signature one behind the other. -/
theorem exists_quote {info : PcrInfoShort} {capBytes signature : Bytes}
    (hmask : info.pcrSelection.mask.length < 0x10000) (hcap : capBytes.length < 0x100000000)
    (hsignature : signature.length < 0x100000000) :
    ∃ params, Field.encode [.ofWire info, .sized capBytes, .sized signature] = .ok params ∧
      params.length =
        31 + info.pcrSelection.mask.length + capBytes.length + signature.length := by
  have hinfo : Wire.encode info = .ok info.encoding := PcrInfoShort.encode_eq_ok.mpr ⟨hmask, rfl⟩
  have hversion := (Layout.encode_sized capBytes).trans (if_pos hcap)
  have hsigned := (Layout.encode_sized signature).trans (if_pos hsignature)
  refine ⟨_, Field.encode_eq_ok.mpr ⟨rfl, append_eq_ok.mpr ⟨_, _, hinfo, append_eq_ok.mpr
    ⟨_, _, hversion, append_eq_ok.mpr ⟨_, [], hsigned, rfl, rfl⟩, rfl⟩, rfl⟩⟩, ?_⟩
  simp only [List.length_append, PcrInfoShort.length_encoding, length_bigEndian, List.length_nil]
  omega

namespace Simulator

/-- The version blob that a quote carries: 18 bytes if it was asked for. -/
theorem exists_capBytes (addVersion : Bool) :
    ∃ capBytes : Bytes, (if addVersion then versionBlob else .ok []) = .ok capBytes ∧
      capBytes.length = (if addVersion then 18 else 0) ∧
      (capBytes = [] ∨ versionBlob = .ok capBytes) := by
  cases addVersion with
  | false => exact ⟨[], rfl, rfl, .inl rfl⟩
  | true =>
    have hexists : versionBlob.toOption.isSome = true := by decide +kernel
    cases hblob : versionBlob with
    | error error =>
      rw [hblob] at hexists
      cases hexists
    | ok capBytes => exact ⟨capBytes, rfl, length_versionBlob hblob, .inr rfl⟩

/-- The device walks the same mask, and puts what it finds into the output. -/
theorem perform_quoteParams {sim : Simulator} {selection : PcrSelection} {values : List Digest}
    {digest : Digest} (hvalues : sim.registerValues? selection.indices = some values)
    (hdigest : compositeDigest selection values = .ok digest) (externalData : Digest)
    (addVersion : Bool) :
    ∃ capBytes params, capBytes.length = (if addVersion then 18 else 0) ∧
      (capBytes = [] ∨ versionBlob = .ok capBytes) ∧
      params.length = 287 + selection.mask.length + capBytes.length ∧
      Field.encode [.ofWire (⟨selection, 1, digest⟩ : PcrInfoShort), .sized capBytes,
        .sized quoteSignature] = .ok params ∧
      sim.perform .quote2 (quoteParams externalData selection addVersion) =
        some (.ok { params }, sim) := by
  obtain ⟨hmask, _⟩ := compositeDigest_eq_ok.mp hdigest
  obtain ⟨capBytes, hcap, hcapLength, hcases⟩ := exists_capBytes addVersion
  have hcapSize : capBytes.length < 0x100000000 := by
    rw [hcapLength]
    split <;> decide
  obtain ⟨params, hencode, hlength⟩ := @exists_quote ⟨selection, 1, digest⟩ capBytes
    quoteSignature hmask hcapSize (by rw [length_quoteSignature]; decide)
  have hread : Request.readParams readQuote (quoteParams externalData selection addVersion) =
      .ok (externalData, selection, addVersion) := by
    refine readQuote_eq_ok.mpr ⟨hmask, if addVersion then 1 else 0, [], ?_, ?_⟩
    · cases addVersion <;> rfl
    · exact (List.append_nil _).symm
  have hquote : quoteOutput selection values addVersion = .ok params := by
    unfold quoteOutput
    rw [hdigest]
    dsimp only [bind, Except.bind]
    cases addVersion with
    | false =>
      cases hcap
      exact hencode
    | true =>
      rw [if_pos rfl] at hcap ⊢
      rw [hcap]
      exact hencode
  refine ⟨capBytes, params, hcapLength, hcases, ?_, hencode, ?_⟩
  · rw [length_quoteSignature] at hlength
    dsimp only at hlength
    omega
  · unfold perform
    rw [hread]
    dsimp only
    rw [hvalues, Option.map_some, hquote]
    rfl

end Simulator

/-! ## Quotes -/

/-- The quote answers what was asked: it names the selection, its digest is the one over the values,
which is also the digest of a binding to them, and it says something of the version exactly if it
was to. The session that asked for it believes it. -/
structure Quote.Reports (quote : Quote) (selection : PcrSelection) (values : List Digest)
    (addVersion : Bool) (session : Session) : Prop where
  pcrSelection_eq : quote.pcrInfo.pcrSelection = selection
  digest_eq : compositeDigest selection values = .ok quote.pcrInfo.digestAtRelease
  forRelease_eq : ∀ locality, ∃ info, PcrInfoLong.forRelease selection values locality = .ok info ∧
    info.digestAtRelease = quote.pcrInfo.digestAtRelease
  capInfo_eq_none : quote.capInfo = none ↔ addVersion = false
  checkResponse_eq : session.checkResponse Ordinal.quote2 (Parameters.quote2Out quote)
    quote.responseAuth = (.ok (), session.roll quote.responseAuth)

namespace Client

/-- What Quote2 returns under a session in sync, if the device has all selected registers; the
answer has 338 bytes beside the mask, and 18 more for a version. -/
theorem quote2_returns {sim : Simulator} {keyHandle : Handle} {session : Session}
    {selection : PcrSelection} {values : List Digest} (hkey : sim.hasKey keyHandle = true)
    (hsync : session.InSync sim) (hmask : selection.mask.length < 0x10000)
    (hvalues : sim.registerValues? selection.indices = some values)
    (externalData nonceOdd : Digest) (addVersion : Bool) :
    ∃ auth authorized,
      session.authorize Ordinal.quote2 (Parameters.quote2 externalData selection addVersion)
        nonceOdd = (.ok auth, authorized) ∧
      ReturnsWithin (quote2 keyHandle externalData selection addVersion auth) sim
        (338 + selection.mask.length + if addVersion then 18 else 0)
        fun quote => quote.Reports selection values addVersion authorized := by
  have hparams := encode_quoteParams hmask externalData addVersion
  obtain ⟨digest, hdigest⟩ : ∃ digest, compositeDigest selection values = .ok digest :=
    ⟨_, compositeDigest_eq_ok.mpr
      ⟨hmask, (Simulator.registerValues?_eq_some.mp hvalues).length_eq, rfl⟩⟩
  obtain ⟨capBytes, params, hcapLength, hcap, hlength, hencode, hperform⟩ :=
    @Simulator.perform_quoteParams (sim.logged Ordinal.quote2) _ _ _ hvalues hdigest externalData
      addVersion
  have hsize : headerSize + 4 + (quoteParams externalData selection addVersion).length +
      CommandAuth.wireLength < 0x100000000 := by
    rw [length_quoteParams]
    simp only [headerSize, CommandAuth.wireLength]
    omega
  obtain ⟨auth, answer, hauthorize, hcheck, hsubmit⟩ := @submit_under_session .quote2 _ _ keyHandle
    sim _ _ (Call.quote2 keyHandle externalData selection addVersion).no_remainder_params hparams
    rfl hsize hkey hsync hperform nonceOdd
  refine ⟨auth, _, hauthorize, ?_⟩
  have hbody := Call.encode_body (by simp [Field.ofWire, Field.sized, FieldKind.policy]) hencode
    [answer]
  have hbound : 338 + selection.mask.length + (if addVersion then 18 else 0) =
      headerSize + (params ++ [answer].flatMap ResponseAuth.encoding).length := by
    rw [List.length_append, hlength, hcapLength, ResponseAuth.length_encodings]
    simp only [headerSize, ResponseAuth.wireLength, List.length_singleton]
    omega
  have hlimit : 338 + selection.mask.length + (if addVersion then 18 else 0) < bufferLimit := by
    unfold bufferLimit
    split <;> omega
  obtain ⟨capInfo, hdecode⟩ := Call.exists_capInfo hcap
  have hnone : capInfo = none ↔ addVersion = false := by
    rw [(CapVersionInfo.decode_eq_ok hdecode).1, ← List.length_eq_zero_iff, hcapLength]
    cases addVersion <;> simp
  rw [hbound] at hlimit ⊢
  refine returnsWithin_of_submit
    (a := ⟨⟨selection, 1, digest⟩, capInfo, capBytes, Simulator.quoteSignature, answer⟩) rfl
    (hsubmit _ _) hlimit (Field.toExcept_fillAll hbody _) ?_ ?_
  · dsimp only [Field.values, Field.ofWire, Field.sized, List.cons_append]
    rw [hdecode]
    rfl
  · exact ⟨rfl, hdigest, PcrInfoLong.forRelease_of_composite hdigest, hnone, hcheck _ hencode⟩

/-- A quote reports the registers that it was asked for. In every state that a new simulator can be
brought to, a key that is loaded quotes any selection of its 24 registers, of whatever length,
under a session in sync. The digest is the composite of the values that reading the selected
registers gives in ascending order, here as in every other state. A client with too little room for
the answer is told how much it takes. -/
theorem quote2_reports {past : List Simulator.Event} {sim : Simulator} {keyHandle : Handle}
    {session : Session} {selection : PcrSelection} (hpast : Simulator.History {} past sim)
    (hkey : sim.hasKey keyHandle = true) (hsync : session.InSync sim)
    (hmask : selection.mask.length ≤ 65535)
    (hselected : ∀ index, selection.isSelected index = true → index.toNat < 24)
    (externalData nonceOdd : Digest) (addVersion : Bool) :
    ∃ indices values auth authorized,
      indices.Pairwise (· < ·) ∧ (∀ index, index ∈ indices ↔ selection.isSelected index = true) ∧
      List.Forall₂ (fun index value => ∀ past other, Simulator.History {} past other →
        ReturnsWithin (pcrRead index) other 30 (· = value)) indices values ∧
      session.authorize Ordinal.quote2 (Parameters.quote2 externalData selection addVersion)
        nonceOdd = (.ok auth, authorized) ∧
      ReturnsWithin (quote2 keyHandle externalData selection addVersion auth) sim
        (338 + selection.mask.length + if addVersion then 18 else 0)
        fun quote => quote.Reports selection values addVersion authorized := by
  have hsmall : selection.mask.length < 0x20000000 := by omega
  obtain ⟨values, hvalues⟩ : ∃ values, sim.registerValues? selection.indices = some values := by
    refine Option.ne_none_iff_exists'.mp fun hnone => ?_
    obtain ⟨index, hmem, hmissing⟩ := Simulator.registerValues?_eq_none.mp hnone
    have hlow := hselected index ((PcrSelection.mem_indices hsmall).mp hmem)
    have hcount : sim.registers.length = 24 := congrArg List.length hpast.registers_eq
    omega
  obtain ⟨auth, authorized, hauthorize, hreturns⟩ := quote2_returns hkey hsync
    (Nat.lt_succ_of_le hmask) hvalues externalData nonceOdd addVersion
  refine ⟨selection.indices, values, auth, authorized, PcrSelection.indices_pairwise hsmall,
    fun index => PcrSelection.mem_indices hsmall, ?_, hauthorize, hreturns⟩
  apply (Simulator.registerValues?_eq_some.mp hvalues).imp
  intro index value hvalue _ other hother
  apply pcrRead_returns
  rw [Simulator.register?, hother.registers_eq, ← hpast.registers_eq]
  exact hvalue

/-- Registers 0, 2 and 23, in a mask that has room for more than there are. -/
def wideSelection : PcrSelection := ⟨[0x05, 0, 0x80, 0, 0]⟩

theorem quote2_reports_wide :
    ∃ values auth authorized,
      Session.first.authorize Ordinal.quote2 (Parameters.quote2 (.zero 20) wideSelection true)
        (.zero 20) = (.ok auth, authorized) ∧
      ReturnsWithin (quote2 Handle.storageRootKey (.zero 20) wideSelection true auth)
        Simulator.afterOiap 361
        fun quote => quote.Reports wideSelection values true authorized := by
  have hselected : ∀ index, wideSelection.isSelected index = true → index.toNat < 24 := by
    intro index hmem
    have hindices : wideSelection.indices = [0, 2, 23] := by decide
    rw [← PcrSelection.mem_indices (by decide), hindices, List.mem_cons, List.mem_pair] at hmem
    obtain rfl | rfl | rfl := hmem <;> decide
  obtain ⟨_, values, auth, authorized, _, _, _, hauthorize, hreturns⟩ :=
    @quote2_reports _ _ Handle.storageRootKey _ _
      (.cons .nil (Simulator.act_of_write Simulator.write_oiap)) rfl Session.first_inSync
      (by decide) hselected (.zero 20) (.zero 20) true
  exact ⟨values, auth, authorized, hauthorize, hreturns⟩

/-- The device can quote, but no buffer is large enough for the client to read into. -/
theorem quote2_beyond_buffers :
    Simulator.afterOiap.Reachable ∧ Simulator.afterOiap.hasKey Handle.storageRootKey = true ∧
      Session.first.InSync Simulator.afterOiap ∧
      (∀ index, PcrSelection.isSelected {} index = true → index.toNat < 24) ∧ 341 ≤ bufferLimit ∧
      ∃ auth authorized, Session.first.authorize Ordinal.quote2
          (Parameters.quote2 (.zero 20) {} false) (.zero 20) = (.ok auth, authorized) ∧
        quote2 Handle.storageRootKey (.zero 20) {} false auth
          ⟨Simulator.afterOiap, bufferLimit⟩ = none := by
  have hselected : ∀ index, PcrSelection.isSelected {} index = true → index.toNat < 24 := by
    intro index hmem
    rw [← PcrSelection.mem_indices (by decide)] at hmem
    cases hmem
  have hparams := @encode_quoteParams {} (by decide) (.zero 20) false
  refine ⟨Simulator.reachable_afterOiap, rfl, Session.first_inSync, hselected, by decide, _, _,
    Session.authorize_of_encode rfl hparams _ _, ?_⟩
  have hperform := @Call.perform_simulator (.quote2 Handle.storageRootKey (.zero 20) {} false)
    [Session.first.block Ordinal.quote2 (quoteParams (.zero 20) {} false) (.zero 20)] _ _ rfl rfl
    hparams Simulator.afterOiap bufferLimit
  rw [if_neg (Nat.lt_irrefl _)] at hperform
  exact hperform

end Client

end TrustedModule
