import TrustedModule.Proofs.Exchange.Framing
import TrustedModule.Proofs.Simulator.Outputs

/-!
# Which bytes are an authorized command

The simulator reads an authorized command in exactly the byte strings that are laid out as one: a
header whose tag announces the blocks that the ordinal needs, the key handle, the parameters, and at
the end the blocks. The declared length is not looked at, and a set flag in a block can be any byte
but 0. The same for the parameters that are read after the checks.
-/

set_option autoImplicit false

namespace TrustedModule

/-! ## Structures -/

/-- A structure without flags is read exactly where its encoding stands. -/
theorem Wire.decode_eq_ok {α : Type} [Wire α] [Inhabited α] {a : α} {source : Bytes}
    (hflags : true ∉ (Wire.layout α).flags (Wire.toValue a)) :
    Wire.decode α source = .ok a ↔
      ∃ bytes tail, Wire.encode a = .ok bytes ∧ source = bytes ++ tail := by
  constructor
  · intro h
    obtain ⟨taken, tail, hsource, hspells⟩ := Wire.spelling_of_decode h
    exact ⟨taken, tail, hspells.eq_of_not_mem hflags, hsource⟩
  · rintro ⟨bytes, tail, hencode, rfl⟩
    exact Wire.decode_append hencode tail

/-- The ten bytes of a header. -/
def CommandHeader.encoding (header : CommandHeader) : Bytes :=
  bigEndian 2 header.tag.toNat ++ bigEndian 4 header.size.toNat ++ bigEndian 4 header.ordinal.toNat

theorem CommandHeader.length_encoding (header : CommandHeader) :
    header.encoding.length = headerSize := by
  simp [encoding, headerSize]

theorem CommandHeader.decode_eq_ok {header : CommandHeader} {command : Bytes} :
    Wire.decode CommandHeader command = .ok header ↔
      ∃ body, command = header.encoding ++ body := by
  rw [Wire.decode_eq_ok (by simp [Wire.layout, Wire.toValue, Layout.flags])]
  constructor
  · rintro ⟨bytes, body, hbytes, rfl⟩
    cases (CommandHeader.encode_eq header).symm.trans hbytes
    exact ⟨body, rfl⟩
  · rintro ⟨body, rfl⟩
    exact ⟨_, body, CommandHeader.encode_eq header, rfl⟩

theorem CommandHeader.drop_encoding (header : CommandHeader) (body : Bytes) :
    (header.encoding ++ body).drop headerSize = body :=
  List.drop_left' header.length_encoding

theorem StoredData.decode_eq_ok {stored : StoredData} {params : Bytes} :
    Wire.decode StoredData params = .ok stored ↔
      stored.sealInfo.length < 0x100000000 ∧ stored.encData.length < 0x100000000 ∧
        ∃ rest, params = stored.encoding ++ rest := by
  rw [Wire.decode_eq_ok (by simp [Wire.layout, Wire.toValue, Layout.flags])]
  constructor
  · rintro ⟨bytes, rest, hbytes, rfl⟩
    obtain ⟨hinfo, hdata, rfl⟩ := StoredData.encode_eq_ok.mp hbytes
    exact ⟨hinfo, hdata, rest, rfl⟩
  · rintro ⟨hinfo, hdata, rest, rfl⟩
    exact ⟨_, rest, StoredData.encode_eq_ok.mpr ⟨hinfo, hdata, rfl⟩, rfl⟩

/-! ## Blocks -/

/-- The trailer has the blocks one behind the other, but for the bytes of set flags. -/
def CommandAuth.Spell (blocks : List CommandAuth) (trailer : Bytes) : Prop :=
  Field.Spells (blocks.map .ofWire) trailer

namespace CommandAuth

theorem spell_iff {blocks : List CommandAuth} {trailer : Bytes} :
    Spell blocks trailer ↔
      Spelling (Field.flags (blocks.map .ofWire)) (.ok (blocks.flatMap encoding)) trailer := by
  rw [Spell, Field.Spells,
    Field.encode_of_no_remainder (Field.no_remainder_structures blocks),
    Field.encodeEach_structures encode_eq]

/-- Where the flags are depends on the number of the blocks alone. -/
theorem flags_blocks (blocks : List CommandAuth) :
    Field.flags (blocks.map .ofWire) =
      (List.replicate blocks.length
        (List.replicate 24 false ++ true :: List.replicate 20 false)).flatten := by
  induction blocks with
  | nil => rfl
  | cons block blocks ih =>
    rw [List.map_cons, Field.flags, ih]
    rfl

theorem length_of_spell {blocks : List CommandAuth} {trailer : Bytes} (h : Spell blocks trailer) :
    trailer.length = blocks.length * wireLength := by
  obtain ⟨bytes, hbytes, hlength⟩ := (spell_iff.mp h).exists_encoded
  cases hbytes
  rw [← hlength, length_encodings]

theorem spell_cons {block : CommandAuth} {blocks : List CommandAuth} {taken trailer : Bytes}
    (hfirst : Spelling ((Wire.layout CommandAuth).flags (Wire.toValue block)) (Wire.encode block)
      taken)
    (hrest : Spell blocks trailer) : Spell (block :: blocks) (taken ++ trailer) := by
  have happend := hfirst.append (spell_iff.mp hrest)
  rw [encode_eq] at happend
  exact spell_iff.mpr happend

/-- A trailer spells one list of blocks only. -/
theorem spell_inj {blocks others : List CommandAuth} {trailer : Bytes}
    (h : Spell blocks trailer) (hother : Spell others trailer) : blocks = others := by
  have hcount : blocks.length = others.length := by
    have hlength := (length_of_spell h).symm.trans (length_of_spell hother)
    exact Nat.eq_of_mul_eq_mul_right (by decide) hlength
  have hsame := (spell_iff.mp h).encoded_eq
  rw [flags_blocks, hcount, ← flags_blocks others, ← (spell_iff.mp hother).encoded_eq] at hsame
  have hdecode := Request.decodeAuths_encodings blocks
  rw [Except.ok.inj hsame, hcount, Request.decodeAuths_encodings] at hdecode
  exact (Except.ok.inj hdecode).symm

end CommandAuth

namespace Request

theorem spell_of_decodeAuths {count : Nat} {bytes : Bytes} {blocks : List CommandAuth}
    (h : decodeAuths count bytes = .ok blocks) :
    ∃ trailer rest, bytes = trailer ++ rest ∧ CommandAuth.Spell blocks trailer := by
  induction count generalizing bytes blocks with
  | zero =>
    cases h
    exact ⟨[], bytes, rfl, CommandAuth.spell_iff.mpr ⟨rfl, rfl⟩⟩
  | succ count ih =>
    unfold decodeAuths at h
    obtain ⟨block, hblock, h⟩ := bind_eq_ok.mp h
    obtain ⟨others, hothers, h⟩ := bind_eq_ok.mp h
    cases h
    obtain ⟨taken, tail, rfl, hspells⟩ :=
      Wire.spelling_of_decode (orBadParameter_eq_ok.mp hblock)
    have htaken : taken.length = CommandAuth.wireLength := hspells.length_eq
    rw [List.drop_left' htaken] at hothers
    obtain ⟨trailer, rest, rfl, hrest⟩ := ih hothers
    exact ⟨taken ++ trailer, rest, (List.append_assoc ..).symm,
      CommandAuth.spell_cons hspells hrest⟩

/-- The blocks are read off a trailer exactly if it spells them. -/
theorem decodeAuths_eq_ok {count : Nat} {trailer : Bytes} {blocks : List CommandAuth}
    (hlength : trailer.length = count * CommandAuth.wireLength) :
    decodeAuths count trailer = .ok blocks ↔ CommandAuth.Spell blocks trailer := by
  have hsound : ∀ others, decodeAuths count trailer = .ok others →
      CommandAuth.Spell others trailer := by
    intro others h
    obtain ⟨taken, rest, hsplit, hspell⟩ := spell_of_decodeAuths h
    have hrest : rest = [] := by
      have htotal := congrArg List.length hsplit
      rw [hlength, List.length_append, CommandAuth.length_of_spell hspell,
        length_decodeAuths h] at htotal
      exact List.eq_nil_of_length_eq_zero (by omega)
    rw [hsplit, hrest, List.append_nil]
    exact hspell
  constructor
  · exact hsound blocks
  · intro hspell
    obtain ⟨others, hothers⟩ := decodeAuths_of_length hlength.ge
    rw [hothers, CommandAuth.spell_inj (hsound others hothers) hspell]

/-- The payload of an authorized command is the key handle, the parameters, and at its end the
blocks. -/
theorem decodeAuthorized_eq_ok_iff {command which : AuthorizedCommand} {payload params : Bytes}
    {keyHandle : Handle} {blocks : List CommandAuth} :
    decodeAuthorized command payload = some (.ok (.authorized which keyHandle params blocks)) ↔
      which = command ∧ blocks.length = command.authCount ∧
      ∃ trailer, payload = bigEndian 4 keyHandle.toNat ++ params ++ trailer ∧
        CommandAuth.Spell blocks trailer := by
  constructor
  · intro h
    have hroom : 4 + command.authCount * CommandAuth.wireLength ≤ payload.length := by
      by_contra hshort
      cases (decodeAuthorized_of_lt (Nat.lt_of_not_le hshort)).symm.trans h
    obtain ⟨handle, middle, trailer, auths, rfl, htrailer, hauths, hdecode⟩ :=
      decodeAuthorized_of_le hroom
    cases hdecode.symm.trans h
    exact ⟨rfl, length_decodeAuths hauths, trailer, rfl, (decodeAuths_eq_ok htrailer).mp hauths⟩
  · rintro ⟨rfl, hcount, trailer, rfl, hspell⟩
    have htrailer : trailer.length = which.authCount * CommandAuth.wireLength := by
      rw [CommandAuth.length_of_spell hspell, hcount]
    rw [decodeAuthorized_split htrailer, (decodeAuths_eq_ok htrailer).mpr hspell]
    rfl

end Request

end TrustedModule
