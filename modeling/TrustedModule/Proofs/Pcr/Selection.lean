import Mathlib.Tactic.ByContra
import TrustedModule.Pcr.Selection

/-!
# Registers of a selection

The list of the registers that a mask selects is ascending and agrees with the test of a single
register, as long as the mask is short enough for every register in it to have a number of 32 bits.
Every mask that was read from the wire is.
-/

set_option autoImplicit false

namespace TrustedModule

namespace PcrMask

theorem le_of_mem_setBits {start index : Nat} {mask : Bytes} (h : index ∈ setBits start mask) :
    start ≤ index := by
  induction mask generalizing start with
  | nil => cases h
  | cons byte rest ih =>
    rcases List.mem_append.mp h with hfirst | hrest
    · obtain ⟨bit, _, rfl⟩ := List.mem_map.mp hfirst
      omega
    · have := ih hrest
      omega

/-- Bit `offset % 8` of byte `offset / 8` stands for the register at that offset. -/
theorem add_mem_setBits {start offset : Nat} {mask : Bytes} :
    start + offset ∈ setBits start mask ↔
      mask[offset / 8]?.any (hasBit · (offset % 8)) = true := by
  induction mask generalizing start offset with
  | nil => simp [setBits]
  | cons byte rest ih =>
    rw [setBits, List.mem_append]
    by_cases hfirst : offset < 8
    · have hnot : start + offset ∉ setBits (start + 8) rest := by
        intro hmem
        have := le_of_mem_setBits hmem
        omega
      rw [Nat.div_eq_of_lt hfirst, Nat.mod_eq_of_lt hfirst]
      simp [hnot, hfirst]
    · obtain ⟨later, rfl⟩ := Nat.exists_eq_add_of_le (Nat.le_of_not_lt hfirst)
      have hnot : start + (8 + later) ∉
          ((List.range 8).filter (hasBit byte)).map (start + ·) := by
        simp only [List.mem_map, List.mem_filter, List.mem_range]
        rintro ⟨bit, ⟨hbit, _⟩, heq⟩
        omega
      rw [← Nat.add_assoc, ih, Nat.add_div_left _ (by decide), Nat.add_mod_left,
        List.getElem?_cons_succ]
      rw [← Nat.add_assoc] at hnot
      exact or_iff_right hnot

theorem setBits_pairwise (start : Nat) (mask : Bytes) : (setBits start mask).Pairwise (· < ·) := by
  induction mask generalizing start with
  | nil => exact .nil
  | cons byte rest ih =>
    refine List.pairwise_append.mpr ⟨?_, ih (start + 8), ?_⟩
    · rw [List.pairwise_map]
      apply (List.pairwise_lt_range.filter _).imp
      intro bit other hlt
      omega
    · intro index hfirst other hrest
      obtain ⟨bit, hbit, rfl⟩ := List.mem_map.mp hfirst
      have hlow := le_of_mem_setBits hrest
      have hhigh := List.mem_range.mp (List.mem_filter.mp hbit).1
      omega

theorem lt_of_mem_setBits {index : Nat} {mask : Bytes} (h : index ∈ setBits 0 mask) :
    index < 8 * mask.length := by
  -- the byte is there
  have hthere : index / 8 < mask.length := by
    by_contra hout
    rw [← Nat.zero_add index, add_mem_setBits, List.getElem?_eq_none (Nat.le_of_not_lt hout)] at h
    cases h
  omega

end PcrMask

namespace PcrSelection

variable {selection : PcrSelection}

/-- All of a short mask counts. -/
theorem indices_eq (hlength : selection.mask.length < 0x20000000) :
    selection.indices = (PcrMask.setBits 0 selection.mask).map UInt32.ofNat := by
  rw [indices, Nat.mod_eq_of_lt hlength, List.take_length]

/-- The register number of a bit of a short mask has 32 bits. -/
theorem toNat_of_mem_setBits (hlength : selection.mask.length < 0x20000000) {index : Nat}
    (h : index ∈ PcrMask.setBits 0 selection.mask) : (UInt32.ofNat index).toNat = index := by
  have hsmall : index < 0x100000000 := by
    have := PcrMask.lt_of_mem_setBits h
    omega
  exact UInt32.toNat_ofNat_of_lt' hsmall

/-- The registers are listed in ascending order, each of them once. -/
theorem indices_pairwise (hlength : selection.mask.length < 0x20000000) :
    selection.indices.Pairwise (· < ·) := by
  rw [indices_eq hlength, List.pairwise_map]
  refine (PcrMask.setBits_pairwise 0 selection.mask).imp_of_mem ?_
  intro index other hmem hother hlt
  rw [UInt32.lt_iff_toNat_lt, toNat_of_mem_setBits hlength hmem,
    toNat_of_mem_setBits hlength hother]
  exact hlt

/-- The listed registers are those that are selected. -/
theorem mem_indices (hlength : selection.mask.length < 0x20000000) {index : UInt32} :
    index ∈ selection.indices ↔ selection.isSelected index = true := by
  have hbit : ∀ offset : Nat, offset ∈ PcrMask.setBits 0 selection.mask ↔
      selection.mask[offset / 8]?.any (PcrMask.hasBit · (offset % 8)) = true := by
    intro offset
    have hoffset := @PcrMask.add_mem_setBits 0 offset selection.mask
    rwa [Nat.zero_add] at hoffset
  rw [indices_eq hlength, List.mem_map, isSelected, ← hbit]
  constructor
  · rintro ⟨offset, hmem, rfl⟩
    rwa [toNat_of_mem_setBits hlength hmem]
  · intro hmem
    exact ⟨index.toNat, hmem, UInt32.ofNat_toNat⟩

end PcrSelection

end TrustedModule
