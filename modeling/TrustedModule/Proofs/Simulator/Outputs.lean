import TrustedModule.Proofs.Pcr.Composite
import TrustedModule.Proofs.Simulator.Requests
import TrustedModule.Proofs.Wire.Spelling

/-!
# What accepted commands give out

The output of an authorized command that is done, for each command. It is never much longer than the
parameters were, so an answer to a command that could be framed can be framed as well.
-/

set_option autoImplicit false

namespace TrustedModule

theorem Request.orBadParameter_eq_ok {α : Type} {result : Except Error α} {a : α} :
    orBadParameter result = .ok a ↔ result = .ok a := by
  cases result with
  | error error => exact ⟨nofun, nofun⟩
  | ok value => simp [orBadParameter, Except.mapError]

/-- The bytes of a sealed blob. -/
def StoredData.encoding (stored : StoredData) : Bytes :=
  bigEndian 4 stored.version.toNat ++ bigEndian 4 stored.sealInfo.length ++ stored.sealInfo ++
    bigEndian 4 stored.encData.length ++ stored.encData

theorem StoredData.length_encoding (stored : StoredData) :
    stored.encoding.length = 12 + stored.sealInfo.length + stored.encData.length := by
  simp only [encoding, List.length_append, length_bigEndian]
  omega

theorem StoredData.encode_eq_ok {stored : StoredData} {bytes : Bytes} :
    Wire.encode stored = .ok bytes ↔
      stored.sealInfo.length < 0x100000000 ∧ stored.encData.length < 0x100000000 ∧
        bytes = stored.encoding := by
  simp only [Wire.encode, Wire.layout, Wire.toValue, Layout.encode_record, Layout.encode_field,
    Layout.encode_u32, Layout.encode_sized, Layout.encode_done]
  by_cases hinfo : stored.sealInfo.length < 0x100000000
  · by_cases hdata : stored.encData.length < 0x100000000
    · simp only [if_pos hinfo, if_pos hdata, bind, Except.bind, pure, Except.pure,
        Except.ok.injEq, encoding, List.append_assoc, List.append_nil]
      exact ⟨fun h => ⟨hinfo, hdata, h.symm⟩, fun h => h.2.2.symm⟩
    · simp [hinfo, hdata, bind, Except.bind]
  · simp [hinfo, bind, Except.bind]

theorem Field.encode_sized {bytes : Bytes} (h : bytes.length < 0x100000000) :
    Field.encode [.sized bytes] = .ok (bigEndian 4 bytes.length ++ bytes) := by
  refine encode_eq_ok.mpr ⟨rfl, append_eq_ok.mpr ⟨_, [], ?_, rfl, (List.append_nil _).symm⟩⟩
  exact (Layout.encode_sized bytes).trans (if_pos h)

namespace Simulator

variable {params : Bytes} {sim next : Simulator} {output : Output}

/-! ## Sealing -/

theorem perform_sealData (h : sim.perform .sealData params = some (.ok output, next)) :
    ∃ stored : StoredData, output.handles = [] ∧ Wire.encode stored = .ok output.params ∧
      output.params.length ≤ params.length := by
  obtain ⟨h, _⟩ := Prod.mk.inj (Option.some.inj h)
  obtain ⟨bytes, hrun, rfl⟩ := map_eq_ok h
  obtain ⟨stored, hread, hencode⟩ := bind_eq_ok.mp hrun
  replace hencode := Request.orBadParameter_eq_ok.mp hencode
  refine ⟨stored, rfl, hencode, ?_⟩
  obtain ⟨_, _, rfl⟩ := StoredData.encode_eq_ok.mp hencode
  obtain ⟨after, hread⟩ := Request.readParams_eq_ok hread
  obtain ⟨encAuth, first, hauth, hread⟩ := Buffer.bind_eq_ok hread
  obtain ⟨sealInfo, second, hinfo, hread⟩ := Buffer.bind_eq_ok hread
  obtain ⟨encData, third, hdata, hread⟩ := Buffer.bind_eq_ok hread
  cases hread
  have hauth : first.ahead.length + encAuth.bytes.length = params.length :=
    (Buffer.took_readBlock hauth).length
  rw [encAuth.length_bytes] at hauth
  have hinfo := (Buffer.took_readSized hinfo).2.length
  have hdata := (Buffer.took_readSized hdata).2.length
  simp only [List.length_append, length_bigEndian] at hinfo hdata
  simp only [StoredData.length_encoding]
  omega

/-- The device opens exactly what decodes as a sealed blob of its version. -/
theorem runUnseal_eq_ok {bytes : Bytes} :
    runUnseal params = .ok bytes ↔
      ∃ stored : StoredData, Wire.decode StoredData params = .ok stored ∧
        stored.version = StoredData.sealedVersion ∧
        bytes = bigEndian 4 stored.encData.length ++ stored.encData := by
  have hencode : ∀ {stored : StoredData}, Wire.decode StoredData params = .ok stored →
      Field.encode [.sized stored.encData] =
        .ok (bigEndian 4 stored.encData.length ++ stored.encData) := by
    intro stored hdecode
    obtain ⟨source, hsource, _⟩ := Wire.encode_of_decode hdecode
    exact Field.encode_sized (StoredData.encode_eq_ok.mp hsource).2.1
  constructor
  · intro h
    obtain ⟨stored, hdecode, h⟩ := bind_eq_ok.mp h
    replace hdecode := Request.orBadParameter_eq_ok.mp hdecode
    split at h
    · rename_i hversion
      rw [hencode hdecode] at h
      cases h
      exact ⟨stored, hdecode, hversion, rfl⟩
    · cases h
  · rintro ⟨stored, hdecode, hversion, rfl⟩
    refine bind_eq_ok.mpr ⟨stored, Request.orBadParameter_eq_ok.mpr hdecode, ?_⟩
    rw [if_pos hversion]
    exact Request.orBadParameter_eq_ok.mpr (hencode hdecode)

theorem perform_unsealData (h : sim.perform .unsealData params = some (.ok output, next)) :
    ∃ secret : Bytes, secret.length < 0x100000000 ∧ output.handles = [] ∧
      output.params = bigEndian 4 secret.length ++ secret ∧
      output.params.length ≤ params.length := by
  obtain ⟨h, _⟩ := Prod.mk.inj (Option.some.inj h)
  obtain ⟨bytes, hrun, rfl⟩ := map_eq_ok h
  obtain ⟨stored, hdecode, _, rfl⟩ := runUnseal_eq_ok.mp hrun
  obtain ⟨source, hsource, hlength⟩ := Wire.encode_of_decode hdecode
  obtain ⟨_, hdata, rfl⟩ := StoredData.encode_eq_ok.mp hsource
  rw [StoredData.length_encoding] at hlength
  refine ⟨stored.encData, hdata, rfl, rfl, ?_⟩
  rw [List.length_append, length_bigEndian]
  omega

/-! ## Keys and quotes -/

theorem perform_loadKey2 (h : sim.perform .loadKey2 params = some (.ok output, next)) :
    ∃ handle : Handle, output.handles = bigEndian 4 handle.toNat ∧ output.params = [] := by
  unfold perform at h
  dsimp only at h
  split at h
  · cases h
  · obtain ⟨h, _⟩ := Prod.mk.inj (Option.some.inj h)
    cases h
    exact ⟨_, rfl, rfl⟩

theorem perform_getPubKey (h : sim.perform .getPubKey params = some (.ok output, next)) :
    ∃ pubKey : PubKey, output.handles = [] ∧ Wire.encode pubKey = .ok output.params ∧
      output.params.length ≤ 300 := by
  obtain ⟨h, _⟩ := Prod.mk.inj (Option.some.inj h)
  obtain ⟨bytes, hencode, rfl⟩ := map_eq_ok h
  replace hencode := Request.orBadParameter_eq_ok.mp hencode
  obtain ⟨pubKey, _, hpub⟩ := bind_eq_ok.mp hencode
  refine ⟨pubKey, rfl, hpub, ?_⟩
  have hlength : ((publicKey.bind Wire.encode).map List.length).toOption.any (· ≤ 300) = true := by
    decide +kernel
  rw [hencode] at hlength
  exact of_decide_eq_true hlength

theorem length_versionBlob {bytes : Bytes} (h : versionBlob = .ok bytes) : bytes.length = 18 := by
  have hlength : (versionBlob.map List.length).toOption = some 18 := by decide +kernel
  rw [h] at hlength
  exact Option.some.inj hlength

theorem quoteOutput_eq_ok {selection : PcrSelection} {values : List Digest} {addVersion : Bool}
    {bytes : Bytes} (h : quoteOutput selection values addVersion = .ok bytes) :
    ∃ (info : PcrInfoShort) (capBytes : Bytes), (capBytes = [] ∨ versionBlob = .ok capBytes) ∧
      Field.encode [.ofWire info, .sized capBytes, .sized quoteSignature] = .ok bytes := by
  obtain ⟨digest, _, h⟩ := bind_eq_ok.mp h
  dsimp only at h
  split at h
  · obtain ⟨capBytes, hcap, h⟩ := bind_eq_ok.mp h
    exact ⟨_, capBytes, .inr hcap, h⟩
  · exact ⟨_, [], .inl rfl, h⟩

theorem length_quote {info : PcrInfoShort} {capBytes signature bytes : Bytes}
    (h : Field.encode [.ofWire info, .sized capBytes, .sized signature] = .ok bytes)
    (hcap : capBytes.length ≤ 18) (hsignature : signature.length ≤ 256) :
    bytes.length ≤ 70000 := by
  obtain ⟨_, heach⟩ := Field.encode_eq_ok.mp h
  obtain ⟨first, afterFirst, hfirst, hafterFirst, rfl⟩ := append_eq_ok.mp heach
  obtain ⟨second, afterSecond, hsecond, hafterSecond, rfl⟩ := append_eq_ok.mp hafterFirst
  obtain ⟨third, afterThird, hthird, hafterThird, rfl⟩ := append_eq_ok.mp hafterSecond
  cases hafterThird
  cases hsecond.symm.trans ((Layout.encode_sized capBytes).trans (if_pos (by omega)))
  cases hthird.symm.trans ((Layout.encode_sized signature).trans (if_pos (by omega)))
  obtain ⟨hmask, rfl⟩ := PcrInfoShort.encode_eq_ok.mp hfirst
  simp only [List.length_append, PcrInfoShort.length_encoding, length_bigEndian, List.length_nil]
  omega

theorem length_quoteSignature : quoteSignature.length = 256 := by
  unfold quoteSignature
  exact List.length_replicate

theorem perform_quote2 (h : sim.perform .quote2 params = some (.ok output, next)) :
    ∃ (info : PcrInfoShort) (capBytes : Bytes), output.handles = [] ∧
      Field.encode [.ofWire info, .sized capBytes, .sized quoteSignature] = .ok output.params ∧
      (capBytes = [] ∨ versionBlob = .ok capBytes) ∧ output.params.length ≤ 70000 := by
  unfold perform at h
  dsimp only at h
  split at h
  · cases h
  · obtain ⟨values, _, h⟩ := Option.map_eq_some_iff.mp h
    obtain ⟨h, _⟩ := Prod.mk.inj h
    obtain ⟨bytes, hquote, rfl⟩ := map_eq_ok h
    obtain ⟨info, capBytes, hcases, hquote⟩ :=
      quoteOutput_eq_ok (Request.orBadParameter_eq_ok.mp hquote)
    refine ⟨info, capBytes, rfl, hquote, hcases, length_quote hquote ?_
      (Nat.le_of_eq length_quoteSignature)⟩
    obtain rfl | hblob := hcases
    · exact Nat.zero_le _
    · exact Nat.le_of_eq (length_versionBlob hblob)

/-- The output of an accepted command is shorter than its parameters, or short in any case. -/
theorem length_output {command : AuthorizedCommand}
    (h : sim.perform command params = some (.ok output, next)) :
    output.handles.length + output.params.length ≤ max params.length 70000 := by
  cases command with
  | sealData =>
    obtain ⟨stored, hhandles, _, hlength⟩ := perform_sealData h
    rw [hhandles, List.length_nil]
    omega
  | unsealData =>
    obtain ⟨secret, _, hhandles, _, hlength⟩ := perform_unsealData h
    rw [hhandles, List.length_nil]
    omega
  | loadKey2 =>
    obtain ⟨handle, hhandles, hparams⟩ := perform_loadKey2 h
    rw [hhandles, hparams, length_bigEndian, List.length_nil]
    omega
  | getPubKey =>
    obtain ⟨pubKey, hhandles, _, hlength⟩ := perform_getPubKey h
    rw [hhandles, List.length_nil]
    omega
  | quote2 =>
    obtain ⟨info, capBytes, hhandles, _, _, hlength⟩ := perform_quote2 h
    rw [hhandles, List.length_nil]
    omega

end Simulator

end TrustedModule
