import TrustedModule.Proofs.Pcr.Selection
import TrustedModule.Proofs.Wire.RoundTrip

/-!
# Selections as sets

Selecting a register sets its bit in the mask and no other one, so a selection that is built from a
list has the registers of the list, however often and in whatever order they were named. A mask in
turn is determined by its length and the registers that it selects. Hence a list and the mask built
from it are two forms of one set, as long as the registers have a place in the mask.
-/

set_option autoImplicit false

namespace TrustedModule

/-- A byte has eight bits. -/
theorem PcrMask.hasBit_of_le (byte : UInt8) {bit : Nat} (h : 8 ≤ bit) :
    hasBit byte bit = false :=
  Nat.testBit_lt_two_pow
    (Nat.lt_of_lt_of_le byte.toNat_lt (Nat.pow_le_pow_right (by decide) h))

namespace PcrSelection

variable {selection middle after other : PcrSelection} {index : UInt32}
  {indices more : List UInt32}

/-- A register beyond the mask is not selected. -/
theorem lt_of_isSelected (h : selection.isSelected index = true) :
    index.toNat / 8 < selection.mask.length := by
  by_contra hout
  rw [isSelected, List.getElem?_eq_none (Nat.le_of_not_lt hout)] at h
  cases h

/-! ## Selecting registers -/

/-- `after` selects what `selection` does and the registers of a list, in a mask of that length. -/
structure Selects (selection after : PcrSelection) (indices : List UInt32) : Prop where
  length_mask : after.mask.length = selection.mask.length
  isSelected_iff : ∀ index, after.isSelected index = true ↔
    selection.isSelected index = true ∨ index ∈ indices

theorem Selects.refl (selection : PcrSelection) : Selects selection selection [] :=
  ⟨rfl, fun _ => by simp⟩

theorem Selects.trans (h : Selects selection middle indices) (h' : Selects middle after more) :
    Selects selection after (indices ++ more) where
  length_mask := h'.length_mask.trans h.length_mask
  isSelected_iff index := by
    rw [h'.isSelected_iff, h.isSelected_iff, List.mem_append, or_assoc]

theorem select_eq_ok :
    select selection index = .ok after ↔ index.toNat / 8 < selection.mask.length ∧
      after = ⟨selection.mask.modify (index.toNat / 8)
        (PcrMask.setBit · (index.toNat % 8))⟩ := by
  unfold select
  split
  · rename_i hroom
    exact ⟨fun h => ⟨hroom, (Except.ok.inj h).symm⟩, fun h => congrArg Except.ok h.2.symm⟩
  · rename_i hroom
    exact ⟨nofun, fun h => absurd h.1 hroom⟩

/-- One bit of the mask is set, and all others stay what they are. -/
theorem selects_select (h : select selection index = .ok after) :
    Selects selection after [index] := by
  obtain ⟨hroom, rfl⟩ := select_eq_ok.mp h
  refine ⟨List.length_modify .., fun another => ?_⟩
  rw [List.mem_singleton, isSelected, isSelected, List.getElem?_modify]
  by_cases hbyte : index.toNat / 8 = another.toNat / 8
  · rw [hbyte] at hroom
    -- within one byte the two registers are the same if their bits are
    have hbit : index.toNat % 8 = another.toNat % 8 ↔ another = index := by
      rw [← UInt32.toNat_inj]
      omega
    simp only [List.getElem?_eq_getElem hroom, hbyte, if_true, Option.map_eq_map,
      Option.map_some, Option.any_some, PcrMask.hasBit_setBit _ (Nat.mod_lt _ (by decide : 0 < 8)),
      Bool.or_eq_true, decide_eq_true_eq, hbit]
  · have hne : another ≠ index := fun heq => hbyte (by rw [heq])
    simp [hbyte, hne]

theorem selects_foldlM (h : indices.foldlM select selection = .ok after) :
    Selects selection after indices := by
  induction indices generalizing selection with
  | nil =>
    cases h
    exact .refl _
  | cons index indices ih =>
    rw [List.foldlM_cons] at h
    obtain ⟨middle, hfirst, hrest⟩ := bind_eq_ok.mp h
    exact (selects_select hfirst).trans (ih hrest)

/-- A list of registers can be selected if each of them has a place in the mask. -/
theorem exists_foldlM :
    (∃ after, indices.foldlM select selection = .ok after) ↔
      ∀ index ∈ indices, index.toNat / 8 < selection.mask.length := by
  induction indices generalizing selection with
  | nil => exact ⟨fun _ _ hmem => absurd hmem List.not_mem_nil, fun _ => ⟨selection, rfl⟩⟩
  | cons index indices ih =>
    simp only [List.foldlM_cons, List.forall_mem_cons]
    constructor
    · rintro ⟨after, h⟩
      obtain ⟨middle, hfirst, hrest⟩ := bind_eq_ok.mp h
      have hall := ih.mp ⟨after, hrest⟩
      rw [(selects_select hfirst).length_mask] at hall
      exact ⟨(select_eq_ok.mp hfirst).1, hall⟩
    · rintro ⟨hroom, hall⟩
      have hfirst := select_eq_ok.mpr ⟨hroom, rfl⟩
      rw [← (selects_select hfirst).length_mask] at hall
      obtain ⟨after, hrest⟩ := ih.mpr hall
      exact ⟨after, bind_eq_ok.mpr ⟨_, hfirst, hrest⟩⟩

/-! ## Masks with the same registers -/

/-- Masks of one length that select the same registers are equal. -/
theorem eq_of_isSelected (hlength : selection.mask.length = other.mask.length)
    (hshort : selection.mask.length < 0x20000000)
    (h : ∀ index, selection.isSelected index = other.isSelected index) : selection = other := by
  obtain ⟨mask⟩ := selection
  obtain ⟨mask'⟩ := other
  refine congrArg PcrSelection.mk (List.ext_getElem hlength fun i hi hi' => ?_)
  apply UInt8.toNat_inj.mp
  apply Nat.eq_of_testBit_eq
  intro bit
  by_cases hbit : bit < 8
  · have hsmall : 8 * i + bit < 0x100000000 := by
      dsimp only at hshort
      omega
    have hregister : (UInt32.ofNat (8 * i + bit)).toNat = 8 * i + bit :=
      UInt32.toNat_ofNat_of_lt' hsmall
    have hbyte : (8 * i + bit) / 8 = i := by omega
    have hplace : (8 * i + bit) % 8 = bit := by omega
    have hsame := h (UInt32.ofNat (8 * i + bit))
    simp only [isSelected, hregister, hbyte, hplace, List.getElem?_eq_getElem hi,
      List.getElem?_eq_getElem hi', Option.any_some] at hsame
    exact hsame
  · have hle := Nat.le_of_not_lt hbit
    exact (PcrMask.hasBit_of_le mask[i] hle).trans (PcrMask.hasBit_of_le mask'[i] hle).symm

/-! ## Selections of the 24 registers of a device -/

/-- Nothing is selected at first. -/
theorem isSelected_default (index : UInt32) : ({} : PcrSelection).isSelected index = false := by
  unfold isSelected
  match index.toNat / 8 with
  | 0 | 1 | 2 => simp [PcrMask.hasBit]
  | _ + 3 => rfl

theorem lt_24_iff : index < 24 ↔ index.toNat / 8 < 3 := by
  rw [UInt32.lt_iff_toNat_lt, show (24 : UInt32).toNat = 24 from rfl]
  omega

/-- A selection is built from a list exactly if the mask has a place for all of the list, and it is
the mask of three bytes that selects the registers of the list and no others. -/
theorem ofIndices_eq_ok :
    ofIndices indices = .ok selection ↔ (∀ index ∈ indices, index < 24) ∧
      selection.mask.length = 3 ∧
      ∀ index, selection.isSelected index = true ↔ index ∈ indices := by
  simp only [lt_24_iff]
  constructor
  · intro h
    obtain ⟨hlength, hselected⟩ := selects_foldlM h
    refine ⟨exists_foldlM.mp ⟨selection, h⟩, hlength, fun index => ?_⟩
    rw [hselected, isSelected_default]
    simp
  · rintro ⟨hroom, hlength, hselected⟩
    obtain ⟨built, hbuilt⟩ := (@exists_foldlM {} indices).mpr hroom
    obtain ⟨hlength', hselected'⟩ := selects_foldlM hbuilt
    rw [ofIndices, hbuilt]
    refine congrArg Except.ok (eq_of_isSelected (hlength'.trans hlength.symm) ?_ fun index => ?_)
    · rw [hlength']
      decide
    · rw [Bool.eq_iff_iff, hselected', hselected, isSelected_default]
      simp

/-- Selections are faithful sets. A list of registers makes a selection if and only if all of them
are below 24; then the selection has the registers of the list, lists them in ascending order and
each once, and every other list of the same registers makes the same selection. A mask of three
bytes is made from the registers that it lists. And the list of a mask, if register numbers reach
all of its bits, is ascending and has the registers that are selected. -/
theorem selections_faithful :
    (∀ indices : List UInt32,
      ((∃ selection, ofIndices indices = .ok selection) ↔ ∀ index ∈ indices, index < 24) ∧
      ∀ selection, ofIndices indices = .ok selection →
        (∀ index, selection.isSelected index = true ↔ index ∈ indices) ∧
        selection.indices.Pairwise (· < ·) ∧
        (∀ index, index ∈ selection.indices ↔ index ∈ indices) ∧
        ∀ others : List UInt32, (∀ index, index ∈ others ↔ index ∈ indices) →
          ofIndices others = .ok selection) ∧
    (∀ selection : PcrSelection, selection.mask.length = 3 →
      ofIndices selection.indices = .ok selection) ∧
    ∀ selection : PcrSelection, selection.mask.length < 0x20000000 →
      selection.indices.Pairwise (· < ·) ∧
      ∀ index, index ∈ selection.indices ↔ selection.isSelected index = true := by
  refine ⟨fun indices => ⟨?_, fun selection h => ?_⟩, fun selection hlength => ?_,
    fun selection hlength => ⟨indices_pairwise hlength, fun _ => mem_indices hlength⟩⟩
  · simp only [lt_24_iff]
    exact exists_foldlM
  · obtain ⟨hroom, hlength, hselected⟩ := ofIndices_eq_ok.mp h
    have hshort : selection.mask.length < 0x20000000 := by omega
    refine ⟨hselected, indices_pairwise hshort, fun index => ?_, fun others hsame => ?_⟩
    · rw [mem_indices hshort, hselected]
    · apply ofIndices_eq_ok.mpr
      simp only [hsame]
      exact ⟨hroom, hlength, hselected⟩
  · have hshort : selection.mask.length < 0x20000000 := by omega
    refine ofIndices_eq_ok.mpr ⟨fun index hmem => ?_, hlength, fun index => ?_⟩
    · have hplace := lt_of_isSelected ((mem_indices hshort).mp hmem)
      rw [hlength] at hplace
      exact lt_24_iff.mpr hplace
    · rw [mem_indices hshort]

/-- Registers 17, 0 and 7, the second of them twice, make the mask 81 00 02; and a mask of four
bytes lists register 25. -/
theorem selections_faithful_samples :
    (⟨[0x81, 0, 2]⟩ : PcrSelection).indices.Pairwise (· < ·) ∧
    (∀ index, index ∈ (⟨[0x81, 0, 2]⟩ : PcrSelection).indices ↔ index ∈ [17, 0, 7, 0]) ∧
    ofIndices [0, 7, 17] = .ok ⟨[0x81, 0, 2]⟩ ∧
    ofIndices (⟨[0xFF, 0, 1]⟩ : PcrSelection).indices = .ok ⟨[0xFF, 0, 1]⟩ ∧
    (25 ∈ (⟨[0, 0, 0, 2]⟩ : PcrSelection).indices ↔
      (⟨[0, 0, 0, 2]⟩ : PcrSelection).isSelected 25 = true) := by
  obtain ⟨hlist, hmask, hwide⟩ := selections_faithful
  obtain ⟨_, hascending, hmem, hothers⟩ := (hlist [17, 0, 7, 0]).2 ⟨[0x81, 0, 2]⟩ (by decide)
  refine ⟨hascending, hmem, hothers [0, 7, 17] fun index => ?_, hmask ⟨[0xFF, 0, 1]⟩ rfl,
    (hwide ⟨[0, 0, 0, 2]⟩ (by decide)).2 25⟩
  simp only [List.mem_cons, List.not_mem_nil, or_false]
  grind

end PcrSelection

end TrustedModule
