import TrustedModule.Proofs.Authorization.Binding
import TrustedModule.Proofs.Pcr.Composite
import TrustedModule.Proofs.Pcr.Selection

/-!
# What a composite digest binds

A composite digest exists for a mask whose length can be counted and for as many values as the mask
has set bits. The hashed bytes hold the mask behind its length and values of one size each, so they
can be taken apart again: one digest stands for one selection and one list of values, but for a
collision of the two byte strings at hand.
-/

set_option autoImplicit false

namespace TrustedModule

/-! ## Set bits -/

theorem cpopNatRec_eq_length {width : Nat} (bits : BitVec width) (count : Nat) :
    bits.cpopNatRec count 0 = ((List.range count).filter bits.getLsbD).length := by
  induction count with
  | zero => rfl
  | succ count ih =>
    rw [BitVec.cpopNatRec_succ, BitVec.cpopNatRec_add, ih, List.range_succ, List.filter_append,
      List.length_append]
    cases hbit : bits.getLsbD count <;> simp [hbit]

namespace PcrMask

/-- How many bits of a mask are set. -/
def setBitCount : Bytes → Nat
  | [] => 0
  | byte :: rest => byte.toBitVec.cpop.toNat + setBitCount rest

theorem length_setBits (start : Nat) (mask : Bytes) :
    (setBits start mask).length = setBitCount mask := by
  induction mask generalizing start with
  | nil => rfl
  | cons byte rest ih =>
    have hbyte : byte.toBitVec.cpop.toNat = ((List.range 8).filter (hasBit byte)).length := by
      rw [BitVec.toNat_cpop]
      exact cpopNatRec_eq_length byte.toBitVec 8
    rw [setBits, List.length_append, List.length_map, ih, ← hbyte]
    rfl

end PcrMask

/-- As many registers are listed as bits are set. -/
theorem PcrSelection.length_indices {selection : PcrSelection}
    (hlength : selection.mask.length < 0x20000000) :
    selection.indices.length = PcrMask.setBitCount selection.mask := by
  rw [indices_eq hlength, List.length_map, PcrMask.length_setBits]

/-! ## The hashed bytes -/

/-- Digests that run together in the same bytes are the same. -/
theorem flatMap_bytes_inj {digests digests' : List Digest}
    (h : digests.flatMap Block.bytes = digests'.flatMap Block.bytes) : digests = digests' := by
  induction digests generalizing digests' with
  | nil =>
    cases digests' with
    | nil => rfl
    | cons digest rest => exact absurd (congrArg List.length h) (by simp; omega)
  | cons digest rest ih =>
    cases digests' with
    | nil => exact absurd (congrArg List.length h) (by simp)
    | cons digest' rest' =>
      simp only [List.flatMap_cons] at h
      obtain ⟨hfirst, hrest⟩ := List.append_inj h (by simp)
      rw [Block.ext hfirst, ih hrest]

section Binding

variable {selection selection' : PcrSelection} {values values' : List Digest} {message : Bytes}
  {digest : Digest}

/-- The bytes tell the mask from the values. -/
theorem compositeBytes_inj (h : compositeBytes selection values = .ok message)
    (h' : compositeBytes selection' values' = .ok message) :
    selection = selection' ∧ values = values' := by
  obtain ⟨hmask, rfl⟩ := compositeBytes_eq_ok.mp h
  obtain ⟨hmask', happend⟩ := compositeBytes_eq_ok.mp h'
  simp only [List.append_assoc] at happend
  obtain ⟨hselection, hrest⟩ := Wire.encode_append_inj
    (PcrSelection.encode_eq_ok.mpr ⟨hmask, rfl⟩) (PcrSelection.encode_eq_ok.mpr ⟨hmask', rfl⟩)
    happend
  obtain ⟨_, hvalues⟩ := List.append_inj hrest (by simp)
  exact ⟨hselection, flatMap_bytes_inj hvalues⟩

theorem exists_compositeDigest :
    (∃ digest, compositeDigest selection values = .ok digest) ↔
      selection.mask.length ≤ 65535 ∧ PcrMask.setBitCount selection.mask = values.length := by
  constructor
  · rintro ⟨digest, h⟩
    obtain ⟨hmask, hcount, _⟩ := compositeDigest_eq_ok.mp h
    rw [PcrSelection.length_indices (by omega)] at hcount
    exact ⟨by omega, hcount⟩
  · rintro ⟨hmask, hcount⟩
    rw [← PcrSelection.length_indices (by omega)] at hcount
    exact ⟨_, compositeDigest_eq_ok.mpr ⟨by omega, hcount, rfl⟩⟩

theorem exists_message (h : compositeDigest selection values = .ok digest) :
    ∃ message, compositeBytes selection values = .ok message ∧ digest = sha1 message := by
  obtain ⟨hmask, _, hdigest⟩ := compositeDigest_eq_ok.mp h
  exact ⟨_, compositeBytes_eq_ok.mpr ⟨hmask, rfl⟩, hdigest⟩

end Binding

/-- A composite digest binds its selection and its values. There is one if and only if the mask has
at most 65535 bytes and there are as many values as set bits. Two digests that are equal were taken
over messages that are the same only if the masks and the values are, so either these are equal or
the two messages are different and have one hash. -/
theorem compositeDigest_binds :
    (∀ (selection : PcrSelection) (values : List Digest),
      (∃ digest, compositeDigest selection values = .ok digest) ↔
        selection.mask.length ≤ 65535 ∧ PcrMask.setBitCount selection.mask = values.length) ∧
    ∀ (selection selection' : PcrSelection) (values values' : List Digest) (digest : Digest),
      compositeDigest selection values = .ok digest →
      compositeDigest selection' values' = .ok digest →
      ∃ message message', compositeBytes selection values = .ok message ∧
        compositeBytes selection' values' = .ok message' ∧
        digest = sha1 message ∧ digest = sha1 message' ∧
        (message = message' ↔ selection.mask = selection'.mask ∧ values = values') ∧
        ((selection.mask = selection'.mask ∧ values = values') ∨
          Collision sha1 message message') := by
  refine ⟨fun selection values => exists_compositeDigest, ?_⟩
  intro selection selection' values values' digest h h'
  obtain ⟨message, hbytes, hdigest⟩ := exists_message h
  obtain ⟨message', hbytes', hdigest'⟩ := exists_message h'
  have hinj : message = message' ↔ selection.mask = selection'.mask ∧ values = values' := by
    constructor
    · rintro rfl
      obtain ⟨rfl, hvalues⟩ := compositeBytes_inj hbytes hbytes'
      exact ⟨rfl, hvalues⟩
    · rintro ⟨hmask, rfl⟩
      obtain rfl : selection = selection' := congrArg PcrSelection.mk hmask
      exact Except.ok.inj (hbytes.symm.trans hbytes')
  refine ⟨message, message', hbytes, hbytes', hdigest, hdigest', hinj, ?_⟩
  by_cases hsame : selection.mask = selection'.mask ∧ values = values'
  · exact .inl hsame
  · exact .inr ⟨mt hinj.mp hsame, hdigest.symm.trans hdigest'⟩

/-- Registers 16 and 17 and their values. -/
theorem compositeDigest_binds_debug :
    PcrMask.setBitCount [0, 0, 3] = 2 ∧
    ∃ digest, compositeDigest ⟨[0, 0, 3]⟩ [.zero 20, .zero 20] = .ok digest ∧
      ∃ message message', compositeBytes ⟨[0, 0, 3]⟩ [.zero 20, .zero 20] = .ok message ∧
        compositeBytes ⟨[0, 0, 3]⟩ [.zero 20, .zero 20] = .ok message' ∧
        digest = sha1 message ∧ digest = sha1 message' ∧
        (message = message' ↔
          ([0, 0, 3] : Bytes) = [0, 0, 3] ∧
            [Block.zero 20, Block.zero 20] = [Block.zero 20, Block.zero 20]) ∧
        ((([0, 0, 3] : Bytes) = [0, 0, 3] ∧
            [Block.zero 20, Block.zero 20] = [Block.zero 20, Block.zero 20]) ∨
          Collision sha1 message message') := by
  obtain ⟨hexists, hbinds⟩ := compositeDigest_binds
  obtain ⟨digest, hdigest⟩ :=
    (hexists ⟨[0, 0, 3]⟩ [.zero 20, .zero 20]).mpr ⟨by decide, by decide⟩
  exact ⟨by decide, digest, hdigest, hbinds ⟨[0, 0, 3]⟩ ⟨[0, 0, 3]⟩ _ _ digest hdigest hdigest⟩

end TrustedModule
