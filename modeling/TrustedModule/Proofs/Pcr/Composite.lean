import TrustedModule.Pcr.Composite
import TrustedModule.Proofs.Wire.RoundTrip

/-!
# Bytes of register structures

A selection and the register information of a quote have an encoding as long as the count in front
of the mask can hold its length, and a composite digest is taken over such an encoding, the length
of the values and the values.
-/

set_option autoImplicit false

namespace TrustedModule

/-- The bytes of a selection: the length of the mask, then the mask. -/
def PcrSelection.encoding (selection : PcrSelection) : Bytes :=
  bigEndian 2 selection.mask.length ++ selection.mask

@[simp] theorem PcrSelection.length_encoding (selection : PcrSelection) :
    selection.encoding.length = 2 + selection.mask.length := by
  rw [encoding, List.length_append, length_bigEndian]

theorem PcrSelection.encode_eq_ok {selection : PcrSelection} {bytes : Bytes} :
    Wire.encode selection = .ok bytes ↔
      selection.mask.length < 0x10000 ∧ bytes = selection.encoding := by
  simp only [Wire.encode, Wire.layout, Wire.toValue, Layout.encode_record, Layout.encode_field,
    Layout.encode_mask, Layout.encode_done]
  by_cases hmask : selection.mask.length < 0x10000
  · simp only [if_pos hmask, bind, Except.bind, pure, Except.pure, Except.ok.injEq, encoding,
      List.append_nil]
    exact ⟨fun h => ⟨hmask, h.symm⟩, fun h => h.2.symm⟩
  · simp [hmask, bind, Except.bind]

def PcrInfoShort.encoding (info : PcrInfoShort) : Bytes :=
  info.pcrSelection.encoding ++ [info.localityAtRelease] ++ info.digestAtRelease.bytes

@[simp] theorem PcrInfoShort.length_encoding (info : PcrInfoShort) :
    info.encoding.length = 23 + info.pcrSelection.mask.length := by
  simp only [encoding, List.length_append, PcrSelection.length_encoding, Block.length_bytes,
    List.length_singleton]
  omega

theorem PcrInfoShort.encode_eq_ok {info : PcrInfoShort} {bytes : Bytes} :
    Wire.encode info = .ok bytes ↔
      info.pcrSelection.mask.length < 0x10000 ∧ bytes = info.encoding := by
  simp only [Wire.encode, Wire.layout, Wire.toValue, Layout.encode_record, Layout.encode_field,
    Layout.encode_mask, Layout.encode_u8, Layout.encode_block, Layout.encode_done]
  by_cases hmask : info.pcrSelection.mask.length < 0x10000
  · simp only [if_pos hmask, bind, Except.bind, pure, Except.pure, Except.ok.injEq, encoding,
      PcrSelection.encoding, List.append_nil, List.append_assoc]
    exact ⟨fun h => ⟨hmask, h.symm⟩, fun h => h.2.symm⟩
  · simp [hmask, bind, Except.bind]

/-! ## Composite digests -/

theorem compositeBytes_eq_ok {selection : PcrSelection} {values : List Digest} {message : Bytes} :
    compositeBytes selection values = .ok message ↔
      selection.mask.length < 0x10000 ∧
        message = selection.encoding ++ bigEndian 4 (values.length * 20) ++
          values.flatMap Block.bytes := by
  unfold compositeBytes
  constructor
  · intro h
    obtain ⟨mask, hmask, rfl⟩ := map_eq_ok h
    obtain ⟨hlength, rfl⟩ := PcrSelection.encode_eq_ok.mp hmask
    exact ⟨hlength, rfl⟩
  · rintro ⟨hlength, rfl⟩
    rw [PcrSelection.encode_eq_ok.mpr ⟨hlength, rfl⟩]
    rfl

theorem compositeDigest_eq_ok {selection : PcrSelection} {values : List Digest} {digest : Digest} :
    compositeDigest selection values = .ok digest ↔
      selection.mask.length < 0x10000 ∧ selection.indices.length = values.length ∧
        digest = sha1 (selection.encoding ++ bigEndian 4 (values.length * 20) ++
          values.flatMap Block.bytes) := by
  unfold compositeDigest
  dsimp only
  by_cases hcount : selection.indices.length = values.length
  · rw [if_pos hcount]
    constructor
    · intro h
      obtain ⟨message, hmessage, rfl⟩ := map_eq_ok h
      obtain ⟨hlength, rfl⟩ := compositeBytes_eq_ok.mp hmessage
      exact ⟨hlength, hcount, rfl⟩
    · rintro ⟨hlength, _, rfl⟩
      rw [compositeBytes_eq_ok.mpr ⟨hlength, rfl⟩]
      rfl
  · rw [if_neg hcount]
    exact ⟨nofun, fun h => absurd h.2.1 hcount⟩

/-- A binding to the values carries their composite digest, for any locality. -/
theorem PcrInfoLong.forRelease_of_composite {selection : PcrSelection} {values : List Digest}
    {digest : Digest} (h : compositeDigest selection values = .ok digest) (locality : UInt8) :
    ∃ info, forRelease selection values locality = .ok info ∧ info.digestAtRelease = digest := by
  unfold forRelease
  rw [h]
  exact ⟨_, rfl, rfl⟩

end TrustedModule
