import TrustedModule.Proofs.Wire.Reading

/-!
# Spellings of a value

A value has one encoding, but a flag in it is read from any byte: 0 for a flag that is not set, and
every other byte for one that is. The spellings of a value are the byte strings that differ from its
encoding in this way only. What a reader takes is a spelling of what it gives, so writing the values
of a list that was read gives back the bytes that were taken, with every set flag as 1.
-/

set_option autoImplicit false

namespace TrustedModule

/-- In the place of a flag every byte but 0 becomes 1; in other places a byte stays what it is. -/
def settleFlag (isFlag : Bool) (byte : UInt8) : UInt8 :=
  if isFlag then (if byte = 0 then 0 else 1) else byte

/-- The bytes with each one that stands for a flag settled. -/
def settleFlags (flags : List Bool) (bytes : Bytes) : Bytes :=
  List.zipWith settleFlag flags bytes

/-- The byte string has the length of the encoding, and is the encoding once its flags are settled;
`flags` tells which of its bytes are flags. -/
structure Spelling (flags : List Bool) (encoded : Except Error Bytes) (source : Bytes) : Prop where
  length_eq : source.length = flags.length
  encoded_eq : encoded = .ok (settleFlags flags source)

section Settling

variable {flags others : List Bool} {bytes rest source : Bytes} {encoded more : Except Error Bytes}

theorem length_settleFlags (h : bytes.length = flags.length) :
    (settleFlags flags bytes).length = bytes.length := by
  rw [settleFlags, List.length_zipWith, h, Nat.min_self]

theorem settleFlags_append (h : bytes.length = flags.length) :
    settleFlags (flags ++ others) (bytes ++ rest) =
      settleFlags flags bytes ++ settleFlags others rest :=
  List.zipWith_append h.symm

theorem settleFlags_of_not_mem (hflags : true ∉ flags) (h : bytes.length = flags.length) :
    settleFlags flags bytes = bytes := by
  induction flags generalizing bytes with
  | nil => rw [List.eq_nil_of_length_eq_zero h]; rfl
  | cons flag flags ih =>
    cases bytes with
    | nil => cases h
    | cons byte bytes =>
      rw [List.mem_cons, not_or] at hflags
      have hfalse : flag = false := by simpa using hflags.1
      have hrest : List.zipWith settleFlag flags bytes = bytes := ih hflags.2 (Nat.succ.inj h)
      simp only [settleFlags, List.zipWith_cons_cons, hrest, hfalse, settleFlag,
        Bool.false_eq_true, if_false]

namespace Spelling

/-- Without flags the encoding is the only spelling. -/
theorem eq_of_not_mem (h : Spelling flags encoded source) (hflags : true ∉ flags) :
    encoded = .ok source := by
  rw [h.encoded_eq, settleFlags_of_not_mem hflags h.length_eq]

theorem of_not_mem (hflags : true ∉ flags) (hlength : source.length = flags.length) :
    Spelling flags (.ok source) source :=
  ⟨hlength, by rw [settleFlags_of_not_mem hflags hlength]⟩

theorem of_replicate {count : Nat} (h : source.length = count) :
    Spelling (List.replicate count false) (.ok source) source :=
  of_not_mem (by simp) (by simp [h])

/-- A value that has a spelling has an encoding, of the same length. -/
theorem exists_encoded (h : Spelling flags encoded source) :
    ∃ bytes, encoded = .ok bytes ∧ bytes.length = source.length :=
  ⟨_, h.encoded_eq, length_settleFlags h.length_eq⟩

theorem append (hfirst : Spelling flags encoded bytes) (hrest : Spelling others more rest) :
    Spelling (flags ++ others) (do return (← encoded) ++ (← more)) (bytes ++ rest) := by
  refine ⟨by simp [hfirst.length_eq, hrest.length_eq], ?_⟩
  rw [hfirst.encoded_eq, hrest.encoded_eq, settleFlags_append hfirst.length_eq]
  rfl

/-- A spelling of two encodings in sequence is one of the first and one of the second. -/
theorem split (hlength : ∀ a, encoded = .ok a → a.length = flags.length)
    (h : Spelling (flags ++ others) (do return (← encoded) ++ (← more)) source) :
    ∃ first second, source = first ++ second ∧ Spelling flags encoded first ∧
      Spelling others more second := by
  obtain ⟨hsource, hencoded⟩ := h
  rw [List.length_append] at hsource
  have hfirst : (source.take flags.length).length = flags.length :=
    List.length_take_of_le (by omega)
  have hsecond : (source.drop flags.length).length = others.length := by
    rw [List.length_drop]
    omega
  obtain ⟨a, b, ha, hb, heq⟩ := append_eq_ok.mp hencoded
  have hsplit := @settleFlags_append flags others _ (source.drop flags.length) hfirst
  rw [List.take_append_drop, heq] at hsplit
  have hparts := List.append_inj hsplit
    ((hlength a ha).trans ((length_settleFlags hfirst).trans hfirst).symm)
  exact ⟨_, _, (List.take_append_drop flags.length source).symm, ⟨hfirst, by rw [ha, hparts.1]⟩,
    ⟨hsecond, by rw [hb, hparts.2]⟩⟩

end Spelling

end Settling

/-! ## Structures -/

namespace Layout

open Buffer Filled

/-- Which bytes of the encoding of a value are flags. -/
def flags : (layout : Layout) → layout.Value → List Bool
  | u8, _ => [false]
  | u16, _ => List.replicate 2 false
  | u32, _ => List.replicate 4 false
  | flag, _ => [true]
  | block size, _ => List.replicate size false
  | mask, value => List.replicate (2 + value.length) false
  | sized, value => List.replicate (4 + value.length) false
  | record _ fields, value => fields.flags value
  | field _ _ head rest, (first, others) => head.flags first ++ rest.flags others
  | done, _ => []

theorem length_flags : ∀ {layout : Layout} {value : layout.Value} {bytes : Bytes},
    layout.encode value = .ok bytes → bytes.length = (layout.flags value).length
  | u8, _, _, h => by
    cases h
    rfl
  | u16, _, _, h => by
    cases h
    exact length_bigEndian ..
  | u32, _, _, h => by
    cases h
    exact length_bigEndian ..
  | flag, _, _, h => by
    cases h
    rfl
  | block _, value, _, h => by
    rw [encode_block] at h
    cases h
    simp [flags]
  | mask, value, _, h => by
    rw [encode_mask] at h
    split at h
    · cases h
      simp [flags]
    · cases h
  | sized, value, _, h => by
    rw [encode_sized] at h
    split at h
    · cases h
      simp [flags]
    · cases h
  | record _ fields, _, _, h => @length_flags fields _ _ h
  | field _ _ head rest, (first, others), _, h => by
    rw [encode_field] at h
    obtain ⟨a, b, ha, hb, rfl⟩ := append_eq_ok.mp h
    rw [List.length_append, length_flags ha, length_flags hb, flags, List.length_append]
  | done, _, _, h => by
    cases h
    rfl

theorem spelling_flag (byte : UInt8) :
    Spelling [true] (encode flag (byte != 0)) [byte] := by
  refine ⟨rfl, ?_⟩
  rw [encode_flag]
  by_cases hbyte : byte = 0 <;> simp [settleFlags, settleFlag, hbyte]

/-- What is taken for a structure is a spelling of it. -/
theorem spelling_of_fill :
    ∀ {layout : Layout} {target value : layout.Value} {buffer after : Buffer},
      layout.fill target buffer = ⟨value, .ok (), after⟩ →
      ∃ source, Took buffer after source ∧
        Spelling (layout.flags value) (layout.encode value) source
  | u8, _, _, _, _, h =>
    ⟨_, took_readU8 (overwrite_eq_ok h), .of_not_mem (by simp [flags]) rfl⟩
  | u16, _, _, _, _, h =>
    ⟨_, took_readU16 (overwrite_eq_ok h), .of_replicate (length_bigEndian ..)⟩
  | u32, _, _, _, _, h =>
    ⟨_, took_readU32 (overwrite_eq_ok h), .of_replicate (length_bigEndian ..)⟩
  | flag, _, _, _, _, h => by
    obtain ⟨byte, rfl, htook⟩ := took_readFlag (overwrite_eq_ok h)
    exact ⟨[byte], htook, spelling_flag byte⟩
  | block _, _, value, _, _, h =>
    ⟨_, took_readBlock (overwrite_eq_ok h), .of_replicate value.length_bytes⟩
  | mask, _, value, _, _, h => by
    obtain ⟨hbound, htook⟩ := took_readMask (overwrite_eq_ok h)
    rw [encode_mask, if_pos hbound]
    exact ⟨_, htook, .of_replicate (by simp)⟩
  | sized, _, value, _, _, h => by
    obtain ⟨hbound, htook⟩ := took_readSized (overwrite_eq_ok h)
    rw [encode_sized, if_pos hbound]
    exact ⟨_, htook, .of_replicate (by simp)⟩
  | record _ fields, _, _, _, _, h => @spelling_of_fill fields _ _ _ _ h
  | field _ _ head rest, (target, targets), (first, others), _, _, h => by
    obtain ⟨middle, hfirst, hothers⟩ := andThen_eq_ok h
    obtain ⟨x, hx, hxspells⟩ := spelling_of_fill hfirst
    obtain ⟨y, hy, hyspells⟩ := spelling_of_fill hothers
    rw [encode_field]
    exact ⟨x ++ y, hx.trans hy, hxspells.append hyspells⟩
  | done, (), (), buffer, _, h => by
    cases h
    exact ⟨[], .refl buffer, rfl, rfl⟩

end Layout

namespace Wire

variable {α : Type} [Wire α] [Inhabited α] {a : α} {source : Bytes}

/-- What is read off the front of a byte string is spelled there. -/
theorem spelling_of_decode (h : decode α source = .ok a) :
    ∃ taken tail, source = taken ++ tail ∧
      Spelling ((layout α).flags (toValue a)) (encode a) taken := by
  unfold decode Layout.decode Filled.toExcept at h
  cases hfill : (layout α).fill (toValue default) (Buffer.ofBytes source) with
  | mk value result after =>
    rw [hfill] at h
    cases result with
    | error error => cases h
    | ok _ =>
      cases h
      obtain ⟨taken, htook, hspells⟩ := Layout.spelling_of_fill hfill
      rw [encode, toValue_ofValue]
      exact ⟨taken, after.ahead, htook.1, hspells⟩

/-- What can be read off the front of a byte string has an encoding that is not longer. -/
theorem encode_of_decode (h : decode α source = .ok a) :
    ∃ bytes, encode a = .ok bytes ∧ bytes.length ≤ source.length := by
  obtain ⟨taken, tail, rfl, hspells⟩ := spelling_of_decode h
  obtain ⟨bytes, hbytes, hlength⟩ := hspells.exists_encoded
  refine ⟨bytes, hbytes, ?_⟩
  rw [List.length_append]
  omega

end Wire

/-! ## Fields -/

namespace FieldKind

open Buffer Filled

/-- Which bytes of the encoding of a field are flags. -/
def flags : (kind : FieldKind) → kind.Value → List Bool
  | plain layout, value => layout.flags value
  | sized, value => Layout.flags .sized value
  | sizedPlain layout, value => List.replicate 4 false ++ layout.flags value
  | remainder, value => List.replicate value.length false

theorem length_flags {kind : FieldKind} {value : kind.Value} {bytes : Bytes}
    (h : kind.encode value = .ok bytes) : bytes.length = (kind.flags value).length := by
  cases kind with
  | plain layout => exact @Layout.length_flags layout _ _ h
  | sized => exact @Layout.length_flags .sized _ _ h
  | sizedPlain layout =>
    obtain ⟨inner, hinner, _, rfl⟩ := encode_sizedPlain_eq_ok h
    simp only [flags, List.length_append, length_bigEndian, List.length_replicate,
      Layout.length_flags hinner]
  | remainder =>
    rw [encode_remainder] at h
    cases h
    simp [flags]

/-- The structure in its counted bytes uses them up, so they are a spelling of it. -/
theorem spelling_of_fillSized {layout : Layout} {target value : layout.Value}
    {buffer after : Buffer} (h : fillSized layout target buffer = ⟨value, .ok (), after⟩) :
    ∃ source, Took buffer after source ∧
      Spelling ((sizedPlain layout).flags value) ((sizedPlain layout).encode value) source := by
  unfold fillSized at h
  split at h
  · cases h
  · rename_i bytes middle hread
    obtain ⟨hbound, htook⟩ := took_readSized hread
    cases hinner : layout.fill target (ofBytes bytes) with
    | mk inner result last =>
      rw [hinner] at h
      cases result with
      | error error => cases h
      | ok _ =>
        dsimp only at h
        split at h
        · rename_i hremaining
          cases h
          obtain ⟨source, hsource, hspells⟩ := Layout.spelling_of_fill hinner
          have hbytes : bytes = source := by
            have hnil : last.ahead = [] := List.eq_nil_of_length_eq_zero hremaining
            have htaken : bytes = source ++ last.ahead := hsource.1
            rw [htaken, hnil, List.append_nil]
          subst hbytes
          obtain ⟨encoded, hencoded, hlength⟩ := hspells.exists_encoded
          have hcount : Spelling (List.replicate 4 false) (.ok (bigEndian 4 bytes.length))
              (bigEndian 4 bytes.length) := .of_replicate (length_bigEndian ..)
          have hwhole := hcount.append hspells
          refine ⟨_, htook, hwhole.length_eq, ?_⟩
          rw [encode_sizedPlain, hencoded]
          rw [hencoded] at hwhole
          simp only [Except.bind, hlength, if_pos hbound]
          exact hwhole.encoded_eq
        · cases h

theorem spelling_of_fill {kind : FieldKind} {trailing : Nat} {target value : kind.Value}
    {buffer after : Buffer} (h : kind.fill trailing target buffer = ⟨value, .ok (), after⟩) :
    ∃ source, Took buffer after source ∧
      Spelling (kind.flags value) (kind.encode value) source := by
  cases kind with
  | plain layout => exact @Layout.spelling_of_fill layout _ _ _ _ h
  | sized => exact @Layout.spelling_of_fill .sized target _ _ _ h
  | sizedPlain layout => exact spelling_of_fillSized h
  | remainder =>
    simp only [fill, fillRemainder] at h
    split at h
    · cases h
    · exact ⟨_, (took_readBytes (overwrite_eq_ok h)).2, .of_replicate rfl⟩

end FieldKind

/-! ## Field lists -/

namespace Field

open Buffer

/-- Which bytes of the encoding of a list are flags. -/
def flags : List Field → List Bool
  | [] => []
  | field :: fields => field.kind.flags field.value ++ flags fields

/-- The byte string is the encoding of the fields, but for the bytes that set flags are read
from. -/
def Spells (fields : List Field) (source : Bytes) : Prop :=
  Spelling (flags fields) (encode fields) source

theorem flags_append (fields others : List Field) :
    flags (fields ++ others) = flags fields ++ flags others := by
  induction fields with
  | nil => rfl
  | cons field fields ih => rw [List.cons_append, flags, flags, ih, List.append_assoc]

theorem length_flags {fields : List Field} {bytes : Bytes} (h : encodeEach fields = .ok bytes) :
    bytes.length = (flags fields).length := by
  induction fields generalizing bytes with
  | nil =>
    cases h
    rfl
  | cons field fields ih =>
    obtain ⟨a, b, ha, hb, rfl⟩ := append_eq_ok.mp h
    rw [List.length_append, FieldKind.length_flags ha, ih hb, flags, List.length_append]

/-- The bytes of two lists run together fall apart into those of the one and those of the other. -/
theorem split_spelling {fields others : List Field} {source : Bytes}
    (h : Spelling (flags (fields ++ others)) (encodeEach (fields ++ others)) source) :
    ∃ first second, source = first ++ second ∧
      Spelling (flags fields) (encodeEach fields) first ∧
      Spelling (flags others) (encodeEach others) second := by
  rw [flags_append, encodeEach_append] at h
  exact h.split fun _ => length_flags

theorem map_kind_ofValues : ∀ (kinds : List FieldKind) (values : FieldKind.Values kinds),
    (ofValues kinds values).map kind = kinds
  | [], () => rfl
  | _ :: kinds, (_, others) => congrArg _ (map_kind_ofValues kinds others)

theorem spelling_of_fillEach {kinds : List FieldKind} {targets values : FieldKind.Values kinds}
    {buffer after : Buffer}
    (h : FieldKind.fillEach kinds targets buffer = ⟨values, .ok (), after⟩) :
    ∃ source, Took buffer after source ∧
      Spelling (flags (ofValues kinds values)) (encodeEach (ofValues kinds values)) source := by
  induction kinds generalizing buffer with
  | nil =>
    cases h
    exact ⟨[], .refl _, rfl, rfl⟩
  | cons kind kinds ih =>
    obtain ⟨target, targets⟩ := targets
    obtain ⟨first, others⟩ := values
    obtain ⟨middle, hfirst, hothers⟩ := Filled.andThen_eq_ok h
    obtain ⟨x, hx, hxspells⟩ := FieldKind.spelling_of_fill hfirst
    obtain ⟨y, hy, hyspells⟩ := ih hothers
    exact ⟨x ++ y, hx.trans hy, hxspells.append hyspells⟩

theorem fillAll_eq_ok {kinds : List FieldKind} {targets values : FieldKind.Values kinds}
    {buffer after : Buffer}
    (h : FieldKind.fillAll kinds targets buffer = ⟨values, .ok (), after⟩) :
    FieldKind.layoutFault? kinds = none ∧
      FieldKind.fillEach kinds targets buffer = ⟨values, .ok (), after⟩ := by
  unfold FieldKind.fillAll at h
  split at h
  · cases h
  · rename_i hlayout
    exact ⟨hlayout, h⟩

theorem spells_of_fillAll {kinds : List FieldKind} {targets values : FieldKind.Values kinds}
    {buffer after : Buffer}
    (h : FieldKind.fillAll kinds targets buffer = ⟨values, .ok (), after⟩) :
    ∃ source, Took buffer after source ∧ Spells (ofValues kinds values) source := by
  obtain ⟨hlayout, hfill⟩ := fillAll_eq_ok h
  obtain ⟨source, htook, hlength, hencoded⟩ := spelling_of_fillEach hfill
  refine ⟨source, htook, hlength, encode_eq_ok.mpr ⟨?_, hencoded⟩⟩
  rw [map_kind_ofValues]
  exact hlayout

theorem length_after_remainder {trailing : Nat} {target value : Bytes} {buffer after : Buffer}
    (h : FieldKind.fillRemainder trailing target buffer = ⟨value, .ok (), after⟩) :
    after.ahead.length = trailing := by
  unfold FieldKind.fillRemainder at h
  split at h
  · cases h
  · rename_i hroom
    obtain ⟨hlength, htook⟩ := took_readBytes (Filled.overwrite_eq_ok h)
    have htaken := htook.length
    simp only [remaining] at hroom hlength
    omega

/-- A list with a remainder is read to the end of the buffer. -/
theorem ahead_of_remainder {kinds : List FieldKind} {targets values : FieldKind.Values kinds}
    {buffer after : Buffer} (hlayout : FieldKind.layoutFault? kinds = none)
    (hmem : .remainder ∈ kinds)
    (h : FieldKind.fillEach kinds targets buffer = ⟨values, .ok (), after⟩) : after.ahead = [] := by
  induction kinds generalizing buffer with
  | nil => cases hmem
  | cons kind kinds ih =>
    obtain ⟨target, targets⟩ := targets
    obtain ⟨first, others⟩ := values
    obtain ⟨middle, hfirst, hothers⟩ := Filled.andThen_eq_ok h
    by_cases hkind : kind = .remainder
    · -- the remainder left room for the fields after it, which all have a fixed size
      subst hkind
      have hroom := length_after_remainder hfirst
      obtain ⟨source, htook, hspells⟩ := spelling_of_fillEach hothers
      obtain ⟨bytes, hbytes, hlength⟩ := hspells.exists_encoded
      have hfixed : ∀ field ∈ ofValues kinds others, field.kind.fixedSize ≠ none := by
        intro field hfield
        apply FieldKind.fixed_after_remainder hlayout
        rw [← map_kind_ofValues kinds others]
        exact List.mem_map_of_mem hfield
      have hsize := length_of_fixed hfixed hbytes
      rw [map_kind_ofValues] at hsize
      have htaken := htook.length
      exact List.eq_nil_of_length_eq_zero (by omega)
    · refine ih (FieldKind.layoutFault?_tail hlayout) ?_ hothers
      exact (List.mem_cons.mp hmem).resolve_left (Ne.symm hkind)

/-- Encoding undoes decoding, up to flags. A list of values that was read, from any bytes and into
any targets, can be written, and its encoding is what was taken for it, with each byte that was read
as a flag and is not 0 become 1. And two readings into targets of the same kinds, of buffers that
hold the same bytes ahead of their cursors, have one result and take the same bytes, and if they
succeed, their targets are equal. -/
theorem encode_fillAll (kinds : List FieldKind) (targets : FieldKind.Values kinds)
    (buffer : Buffer) :
    (∀ values after, FieldKind.fillAll kinds targets buffer = ⟨values, .ok (), after⟩ →
      ∃ source, Took buffer after source ∧ Spells (ofValues kinds values) source) ∧
    ∀ (others : FieldKind.Values kinds) (other : Buffer), buffer.ahead = other.ahead →
      Filled.Agree buffer other (FieldKind.fillAll kinds targets buffer)
        (FieldKind.fillAll kinds others other) :=
  ⟨fun _ _ h => spells_of_fillAll h,
    fun others other hahead => FieldKind.uniform_fillAll kinds targets others buffer other hahead⟩

/-- A flag from the byte 7, a selection and a remainder, read from two places into two lists of
targets. -/
theorem encode_fillAll_sample :
    (∃ source, Took ⟨[5], [7, 0, 1, 255, 4, 4]⟩ ⟨[5, 7, 0, 1, 255, 4, 4], []⟩ source ∧
      Spells [.flag true, .ofWire (⟨[255]⟩ : PcrSelection), .remainder [4, 4]] source) ∧
    Filled.Agree ⟨[5], [7, 0, 1, 255, 4, 4]⟩ ⟨[], [7, 0, 1, 255, 4, 4]⟩
      (FieldKind.fillAll [.plain .flag, .ofWire PcrSelection, .remainder]
        (false, ([0, 0, 0], ()), [9], ()) ⟨[5], [7, 0, 1, 255, 4, 4]⟩)
      (FieldKind.fillAll [.plain .flag, .ofWire PcrSelection, .remainder] (true, ([], ()), [], ())
        ⟨[], [7, 0, 1, 255, 4, 4]⟩) := by
  obtain ⟨hspells, hagree⟩ := encode_fillAll [.plain .flag, .ofWire PcrSelection, .remainder]
    (false, ([0, 0, 0], ()), [9], ()) ⟨[5], [7, 0, 1, 255, 4, 4]⟩
  exact ⟨hspells (true, ([255], ()), [4, 4], ()) ⟨[5, 7, 0, 1, 255, 4, 4], []⟩ rfl,
    hagree (true, ([], ()), [], ()) ⟨[], [7, 0, 1, 255, 4, 4]⟩ rfl⟩

end Field

end TrustedModule
