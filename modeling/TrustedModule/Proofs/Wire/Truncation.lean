import TrustedModule.Proofs.Wire.RoundTrip

/-!
# Encodings whose end is missing

A reader cannot take a part of an encoding for the whole. Wherever the bytes end, in a number, in a
count, in what is counted or between two parts, it fails for want of bytes. In a field list this
happens at the one field within whose encoding the bytes end: the targets before it have their
values by then, and those after it are never looked at.
-/

set_option autoImplicit false

namespace TrustedModule

/-- Two encodings in sequence that end too early: the end is missing of the first, or the first is
whole and it is missing of the second. -/
theorem append_eq_cut {first second front missing : Bytes}
    (h : first ++ second = front ++ missing) :
    (∃ rest, first = front ++ rest ∧ rest ≠ []) ∨
      ∃ more, front = first ++ more ∧ second = more ++ missing := by
  rcases List.append_eq_append_iff.mp h with ⟨more, hfront, hsecond⟩ | ⟨rest, hfirst, hrest⟩
  · exact .inr ⟨more, hfront, hsecond⟩
  · cases rest with
    | nil =>
      -- the bytes end right between the two
      rw [List.append_nil] at hfirst
      exact .inr ⟨[], by rw [hfirst, List.append_nil], hrest.symm⟩
    | cons byte rest => exact .inl ⟨byte :: rest, hfirst, nofun⟩

namespace Buffer

/-- The read cannot do without any of the bytes: if the end of them is missing, and nothing else is
ahead, it fails for want of bytes. -/
def NeedsAll {α : Type} (read : BufferM α) (bytes : Bytes) : Prop :=
  ∀ front missing, bytes = front ++ missing → missing ≠ [] →
    ∀ passed, ∃ needed remaining after,
      read ⟨passed, front⟩ = (.error (.underflow needed remaining), after)

section Needs

variable {α β : Type} {read first : BufferM α} {next : α → BufferM β} {a : α} {x y bytes : Bytes}

theorem NeedsAll.bind (hfirst : NeedsAll first x) (hreads : Reads first a x)
    (hnext : NeedsAll (next a) y) : NeedsAll (first >>= next) (x ++ y) := by
  intro front missing h hmissing passed
  rcases append_eq_cut h with ⟨rest, hx, hrest⟩ | ⟨more, rfl, hy⟩
  · obtain ⟨needed, remaining, after, hread⟩ := hfirst front rest hx hrest passed
    exact ⟨needed, remaining, after, bind_of_error hread⟩
  · rw [bind_of_ok (hreads passed more)]
    exact hnext more missing hy hmissing (passed ++ x)

theorem NeedsAll.map (h : NeedsAll read bytes) (f : α → β) :
    NeedsAll (do return f (← read)) bytes := by
  intro front missing hbytes hmissing passed
  obtain ⟨needed, remaining, after, hread⟩ := h front missing hbytes hmissing passed
  exact ⟨needed, remaining, after, bind_of_error hread⟩

theorem needsAll_block {count : Nat} (h : bytes.length = count) :
    NeedsAll (readBlock count) bytes := by
  rintro front missing rfl hmissing passed
  have hshort : (Buffer.mk passed front).remaining < count := by
    have hpositive := List.length_pos_iff.mpr hmissing
    rw [List.length_append] at h
    change front.length < count
    omega
  exact ⟨count, _, _, readBlock_of_lt hshort⟩

theorem needsAll_bytes {count : Nat} (h : bytes.length = count) :
    NeedsAll (readBytes count) bytes :=
  (needsAll_block h).map _

theorem needsAll_u8 (value : UInt8) : NeedsAll readU8 [value] :=
  (needsAll_bytes rfl).map _

theorem needsAll_u16 (value : UInt16) : NeedsAll readU16 (bigEndian 2 value.toNat) :=
  (needsAll_bytes (length_bigEndian ..)).map _

theorem needsAll_u32 (value : UInt32) : NeedsAll readU32 (bigEndian 4 value.toNat) :=
  (needsAll_bytes (length_bigEndian ..)).map _

theorem needsAll_flag (byte : UInt8) : NeedsAll readFlag [byte] :=
  (needsAll_u8 byte).map _

theorem needsAll_mask {value : Bytes} (h : value.length < 0x10000) :
    NeedsAll readMask (bigEndian 2 value.length ++ value) := by
  have hcount : (UInt16.ofNat value.length).toNat = value.length := UInt16.toNat_ofNat_of_lt' h
  have hread := reads_u16 (UInt16.ofNat value.length)
  have hneeds := needsAll_u16 (UInt16.ofNat value.length)
  rw [hcount] at hread hneeds
  exact hneeds.bind hread (needsAll_bytes hcount.symm)

theorem needsAll_sized {value : Bytes} (h : value.length < 0x100000000) :
    NeedsAll readSized (bigEndian 4 value.length ++ value) := by
  have hcount : (UInt32.ofNat value.length).toNat = value.length := UInt32.toNat_ofNat_of_lt' h
  have hread := reads_u32 (UInt32.ofNat value.length)
  have hneeds := needsAll_u32 (UInt32.ofNat value.length)
  rw [hcount] at hread hneeds
  exact hneeds.bind hread (needsAll_bytes hcount.symm)

end Needs

end Buffer

namespace Filled

/-- Reading into a target fails for want of bytes if the end of the bytes is missing. -/
def NeedsAll {α : Type} (fill : α → Buffer → Filled α) (bytes : Bytes) : Prop :=
  ∀ front missing, bytes = front ++ missing → missing ≠ [] →
    ∀ target passed, ∃ needed remaining,
      (fill target ⟨passed, front⟩).result = .error (.underflow needed remaining)

theorem needsAll_overwrite {α : Type} {read : BufferM α} {bytes : Bytes}
    (h : Buffer.NeedsAll read bytes) : NeedsAll (fun target => overwrite target read) bytes := by
  intro front missing hbytes hmissing target passed
  obtain ⟨needed, remaining, after, hread⟩ := h front missing hbytes hmissing passed
  refine ⟨needed, remaining, ?_⟩
  simp only [overwrite, hread]

theorem andThen_of_error {α β : Type} {first : Filled α} {error : Error}
    (h : first.result = .error error) (next : β) (fill : β → Buffer → Filled β) :
    first.andThen next fill = first.map (·, next) := by
  simp only [andThen, h]

/-- Of two targets in sequence the end is missing of the first, or of the second behind it. -/
theorem NeedsAll.andThen {α β : Type} {fill : α → Buffer → Filled α} {next : β → Buffer → Filled β}
    {a : α} {x y : Bytes} (hfirst : NeedsAll fill x) (hrecovers : Recovers fill a x)
    (hnext : NeedsAll next y) :
    NeedsAll (fun targets : α × β => fun buffer => (fill targets.1 buffer).andThen targets.2 next)
      (x ++ y) := by
  intro front missing hcut hmissing targets passed
  rcases append_eq_cut hcut with ⟨rest, hx, hrest⟩ | ⟨more, rfl, hy⟩
  · obtain ⟨needed, remaining, hresult⟩ := hfirst front rest hx hrest targets.1 passed
    refine ⟨needed, remaining, ?_⟩
    simp only [andThen_of_error hresult]
    exact hresult
  · obtain ⟨needed, remaining, hresult⟩ := hnext more missing hy hmissing targets.2 (passed ++ x)
    refine ⟨needed, remaining, ?_⟩
    simp only [hrecovers targets.1 passed more]
    exact hresult

end Filled

/-! ## Structures -/

namespace Layout

open Filled Buffer

/-- A structure is read from the whole of its encoding only. -/
theorem needsAll_fill :
    ∀ {layout : Layout} {value : layout.Value} {bytes : Bytes},
      layout.encode value = .ok bytes → NeedsAll layout.fill bytes
  | u8, value, _, h => by
    cases h
    exact needsAll_overwrite (needsAll_u8 value)
  | u16, value, _, h => by
    cases h
    exact needsAll_overwrite (needsAll_u16 value)
  | u32, value, _, h => by
    cases h
    exact needsAll_overwrite (needsAll_u32 value)
  | flag, value, _, h => by
    cases h
    exact needsAll_overwrite (needsAll_flag _)
  | block _, value, _, h => by
    cases h
    exact needsAll_overwrite (needsAll_block value.length_bytes)
  | mask, value, _, h => by
    rw [encode_mask] at h
    split at h
    · rename_i hlength
      cases h
      exact needsAll_overwrite (needsAll_mask hlength)
    · cases h
  | sized, value, _, h => by
    rw [encode_sized] at h
    split at h
    · rename_i hlength
      cases h
      exact needsAll_overwrite (needsAll_sized hlength)
    · cases h
  | record _ fields, _, _, h => @needsAll_fill fields _ _ h
  | field _ _ head rest, (first, others), _, h => by
    rw [encode_field] at h
    obtain ⟨a, b, ha, hb, rfl⟩ := append_eq_ok.mp h
    intro front missing hcut hmissing (target, targets) passed
    exact (needsAll_fill ha).andThen (recovers_fill ha) (needsAll_fill hb) front missing hcut
      hmissing (target, targets) passed
  | done, (), _, h => by
    rw [encode_done] at h
    cases h
    intro front missing hcut hmissing
    exact absurd (List.append_eq_nil_iff.mp hcut.symm).2 hmissing

end Layout

/-! ## Field lists -/

namespace FieldKind

open Filled

theorem needsAll_fillSized (layout : Layout) {bytes : Bytes} (h : bytes.length < 0x100000000) :
    NeedsAll (fillSized layout) (bigEndian 4 bytes.length ++ bytes) := by
  intro front missing hcut hmissing target passed
  -- the structure is not looked at before all of its counted bytes are there
  obtain ⟨needed, remaining, after, hread⟩ :=
    Buffer.needsAll_sized h front missing hcut hmissing passed
  refine ⟨needed, remaining, ?_⟩
  simp only [fillSized, hread]

theorem needsAll_fill {kind : FieldKind} (hkind : kind ≠ .remainder) {value : kind.Value}
    {bytes : Bytes} (h : kind.encode value = .ok bytes) (trailing : Nat) :
    NeedsAll (kind.fill trailing) bytes := by
  cases kind with
  | plain layout => exact @Layout.needsAll_fill layout _ _ h
  | sized => exact @Layout.needsAll_fill .sized _ _ h
  | sizedPlain layout =>
    obtain ⟨inner, _, hlength, rfl⟩ := encode_sizedPlain_eq_ok h
    exact needsAll_fillSized layout hlength
  | remainder => exact absurd rfl hkind

end FieldKind

namespace Field

/-- The bytes end within the encoding of `field`, behind the encodings of the fields `before` it. -/
def EndsWithin (front : Bytes) (before : List Field) (field : Field) : Prop :=
  ∃ complete part missing, encodeEach before = .ok complete ∧
    field.kind.encode field.value = .ok (part ++ missing) ∧ missing ≠ [] ∧ front = complete ++ part

/-- A reader of the fields met bytes that end within the encoding of `field`. It failed for want of
bytes; the targets of the fields `before` have their values, and those behind the target of `field`
hold what they held. -/
structure StopsWithin (fields : List Field) (targets : FieldKind.Values (fields.map kind))
    (front : Bytes) (filled : Filled (FieldKind.Values (fields.map kind))) (before : List Field)
    (field : Field) : Prop where
  splits : ∃ after, fields = before ++ field :: after
  ends : EndsWithin front before field
  underflow : ∃ needed remaining, filled.result = .error (.underflow needed remaining)
  targets_eq : ∃ held : field.kind.Value,
    ofValues (fields.map kind) filled.target =
      before ++ ⟨field.kind, held⟩ :: (ofValues (fields.map kind) targets).drop (before.length + 1)

theorem fillEach_cut {fields : List Field} {front missing : Bytes}
    (hkinds : ∀ field ∈ fields, field.kind ≠ .remainder)
    (hencode : encodeEach fields = .ok (front ++ missing)) (hmissing : missing ≠ [])
    (targets : FieldKind.Values (fields.map kind)) (passed : Bytes) :
    ∃ before field, StopsWithin fields targets front
      (FieldKind.fillEach (fields.map kind) targets ⟨passed, front⟩) before field := by
  induction fields generalizing front passed with
  | nil =>
    have hnil : [] = front ++ missing := Except.ok.inj hencode
    exact absurd (List.append_eq_nil_iff.mp hnil.symm).2 hmissing
  | cons field fields ih =>
    obtain ⟨a, b, ha, hb, hcut⟩ := append_eq_ok.mp hencode
    obtain ⟨target, targets⟩ := targets
    have hkind := hkinds field (List.mem_cons_self ..)
    change ∃ before last, StopsWithin (field :: fields) (target, targets) front
      ((field.kind.fill (FieldKind.trailingSize (fields.map kind)) target
        ⟨passed, front⟩).andThen targets (FieldKind.fillEach (fields.map kind))) before last
    rcases append_eq_cut hcut.symm with ⟨rest, rfl, hrest⟩ | ⟨more, rfl, hmore⟩
    · -- the first field lacks its end, and nothing else is touched
      obtain ⟨needed, remaining, hhead⟩ := FieldKind.needsAll_fill hkind ha
        (FieldKind.trailingSize (fields.map kind)) front rest rfl hrest target passed
      rw [Filled.andThen_of_error hhead]
      exact ⟨[], field, ⟨fields, rfl⟩, ⟨[], front, rest, rfl, ha, hrest, rfl⟩,
        ⟨needed, remaining, hhead⟩, ⟨_, rfl⟩⟩
    · have hhead := FieldKind.recovers_fill (mt FieldKind.policy_eq_remainder.mp hkind) ha
        (FieldKind.trailingSize (fields.map kind)) target passed more
      obtain ⟨before, last, hstops⟩ := ih
        (fun other hmem => hkinds other (List.mem_cons_of_mem _ hmem)) (hmore ▸ hb) targets
        (passed ++ a)
      obtain ⟨⟨after, hsplit⟩, ⟨complete, part, lost, hbefore, hlast, hlost, hends⟩,
        ⟨needed, remaining, hresult⟩, held, htargets⟩ := hstops
      refine ⟨field :: before, last, ⟨after, by rw [hsplit]; rfl⟩,
        ⟨a ++ complete, part, lost, ?_, hlast, hlost, by rw [hends, List.append_assoc]⟩,
        ⟨needed, remaining, ?_⟩, held, ?_⟩
      · rw [encodeEach, ha, hbefore]
        rfl
      · rw [hhead]
        exact hresult
      · rw [hhead]
        exact congrArg (field :: ·) htargets

/-- Truncation is detected. A reader that meets an encoding whose end is missing, of a field list
without a remainder, fails for want of bytes at the field within whose encoding the bytes end,
whatever stands before its cursor and whatever its targets held; and so does the reader of every
structure. -/
theorem fillAll_truncated :
    (∀ (fields : List Field) (front missing : Bytes) (targets : FieldKind.Values (fields.map kind))
        (buffer : Buffer),
      (∀ field ∈ fields, field.kind ≠ .remainder) → encode fields = .ok (front ++ missing) →
      missing ≠ [] → buffer.ahead = front →
      ∃ before field, StopsWithin fields targets front
        (FieldKind.fillAll (fields.map kind) targets buffer) before field) ∧
    ∀ (α : Type) [Wire α] [Inhabited α] (a : α) (front missing : Bytes),
      Wire.encode a = .ok (front ++ missing) → missing ≠ [] →
      ∃ needed remaining, Wire.decode α front = .error (.underflow needed remaining) := by
  constructor
  · rintro fields front missing targets ⟨passed, ahead⟩ hkinds hencode hmissing rfl
    obtain ⟨hlayout, heach⟩ := encode_eq_ok.mp hencode
    simp only [FieldKind.fillAll, hlayout]
    exact fillEach_cut hkinds heach hmissing targets passed
  · intro α _ _ a front missing hencode hmissing
    obtain ⟨needed, remaining, hresult⟩ :=
      Layout.needsAll_fill hencode front missing rfl hmissing (Wire.toValue default) []
    refine ⟨needed, remaining, ?_⟩
    simp only [Wire.decode, Layout.decode, Buffer.ofBytes, Filled.toExcept, hresult, Except.map]

/-- Counted bytes and a counted selection, cut within the mask, in front of a flag; and a selection
whose mask is cut. -/
theorem fillAll_truncated_selections :
    (∃ before field, StopsWithin
      [.sized [7, 8], .sizedOfWire (⟨[255, 1]⟩ : PcrSelection), .flag true]
      ([9], ([0, 0, 0], ()), false, ()) [0, 0, 0, 2, 7, 8, 0, 0, 0, 4, 0, 2, 255]
      (FieldKind.fillAll [.sized, .sizedPlain (Wire.layout PcrSelection), .plain .flag]
        ([9], ([0, 0, 0], ()), false, ()) ⟨[5], [0, 0, 0, 2, 7, 8, 0, 0, 0, 4, 0, 2, 255]⟩)
      before field) ∧
    ∃ needed remaining,
      Wire.decode PcrSelection [0, 2, 255] = .error (.underflow needed remaining) := by
  obtain ⟨hlist, hstructure⟩ := fillAll_truncated
  constructor
  · exact hlist [.sized [7, 8], .sizedOfWire (⟨[255, 1]⟩ : PcrSelection), .flag true]
      [0, 0, 0, 2, 7, 8, 0, 0, 0, 4, 0, 2, 255] [1, 1] ([9], ([0, 0, 0], ()), false, ()) ⟨[5], _⟩
      (by simp [sized, sizedOfWire, flag]) rfl (by decide) rfl
  · exact hstructure PcrSelection ⟨[255, 1]⟩ [0, 2, 255] [1] rfl (by decide)

end Field

end TrustedModule
