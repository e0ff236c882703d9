import Mathlib.Data.List.TakeWhile
import TrustedModule.Proofs.Wire.Writing
import TrustedModule.Structure.Pcr

/-!
# Reading back what was written

A reader that meets an encoding takes exactly its bytes, gives the value that was written and
leaves the rest alone, whatever stands before and after it and whatever its target held. A field
list with a remainder needs the encoding to end the buffer: the remainder takes what is there.
-/

set_option autoImplicit false

namespace TrustedModule

theorem bind_eq_ok {ε α β : Type} {first : Except ε α} {next : α → Except ε β} {b : β} :
    (first >>= next) = .ok b ↔ ∃ a, first = .ok a ∧ next a = .ok b := by
  cases first with
  | error error => exact ⟨nofun, nofun⟩
  | ok a => exact ⟨fun h => ⟨a, rfl, h⟩, fun ⟨_, ha, h⟩ => Except.ok.inj ha ▸ h⟩

theorem bind_eq_error {ε α β : Type} {first : Except ε α} {next : α → Except ε β} {error : ε} :
    (first >>= next) = .error error ↔
      first = .error error ∨ ∃ a, first = .ok a ∧ next a = .error error := by
  cases first with
  | error other =>
    constructor
    · intro h
      cases h
      exact .inl rfl
    · rintro (h | ⟨a, h, _⟩)
      · cases h
        rfl
      · cases h
  | ok a =>
    constructor
    · exact fun h => .inr ⟨a, rfl, h⟩
    · rintro (h | ⟨a, ha, h⟩)
      · cases h
      · cases ha
        exact h

theorem map_eq_ok {ε α β : Type} {result : Except ε α} {f : α → β} {b : β}
    (h : result.map f = .ok b) : ∃ a, result = .ok a ∧ b = f a := by
  cases result with
  | error error => cases h
  | ok a =>
    cases h
    exact ⟨a, rfl, rfl⟩

theorem map_eq_error {ε α β : Type} {result : Except ε α} {f : α → β} {error : ε}
    (h : result.map f = .error error) : result = .error error := by
  cases result with
  | error other =>
    cases h
    rfl
  | ok a => cases h

/-- Two encodings in sequence have run together if both exist. -/
theorem append_eq_ok {first second : Except Error Bytes} {bytes : Bytes} :
    (do return (← first) ++ (← second)) = Except.ok bytes ↔
      ∃ a b, first = .ok a ∧ second = .ok b ∧ bytes = a ++ b := by
  constructor
  · intro h
    obtain ⟨a, ha, h⟩ := bind_eq_ok.mp h
    obtain ⟨b, hb, h⟩ := bind_eq_ok.mp h
    exact ⟨a, b, ha, hb, (Except.ok.inj h).symm⟩
  · rintro ⟨a, b, rfl, rfl, rfl⟩
    rfl

namespace Buffer

/-- The read takes `bytes` off the front and gives `a`, whatever is around them. -/
def Reads {α : Type} (read : BufferM α) (a : α) (bytes : Bytes) : Prop :=
  ∀ passed rest, read ⟨passed, bytes ++ rest⟩ = (.ok a, ⟨passed ++ bytes, rest⟩)

theorem Reads.bind {α β : Type} {first : BufferM α} {next : α → BufferM β} {a : α} {b : β}
    {x y : Bytes} (hfirst : Reads first a x) (hnext : Reads (next a) b y) :
    Reads (first >>= next) b (x ++ y) := by
  intro passed rest
  rw [List.append_assoc, bind_of_ok (hfirst passed (y ++ rest)), hnext, List.append_assoc]

theorem reads_pure {α : Type} (a : α) : Reads (pure a) a [] := by
  intro passed rest
  rw [List.append_nil]
  rfl

theorem Reads.map {α β : Type} {read : BufferM α} {a : α} {bytes : Bytes} (h : Reads read a bytes)
    (f : α → β) : Reads (do return f (← read)) (f a) bytes := by
  have hmap : Reads (read >>= fun a => pure (f a)) (f a) (bytes ++ []) := h.bind (reads_pure (f a))
  rwa [List.append_nil] at hmap

theorem reads_block {count : Nat} (value : Block count) :
    Reads (readBlock count) value value.bytes := by
  obtain ⟨bytes, rfl⟩ := value
  intro passed rest
  rw [readBlock_of_le (by simp)]
  simp [advance]

theorem reads_bytes (bytes : Bytes) : Reads (readBytes bytes.length) bytes bytes :=
  (reads_block ⟨bytes, rfl⟩).map Block.bytes

theorem reads_bytes_of_length {count : Nat} {bytes : Bytes} (h : bytes.length = count) :
    Reads (readBytes count) bytes bytes := by
  subst h
  exact reads_bytes bytes

theorem reads_u8 (value : UInt8) : Reads readU8 value [value] := by
  have h := (reads_bytes [value]).map fun bytes => UInt8.ofNat (ofBigEndian bytes)
  have hvalue : UInt8.ofNat (ofBigEndian [value]) = value := by simp [ofBigEndian]
  rwa [hvalue] at h

theorem reads_u16 (value : UInt16) : Reads readU16 value (bigEndian 2 value.toNat) := by
  have h := (reads_bytes_of_length (length_bigEndian 2 value.toNat)).map
    fun bytes => UInt16.ofNat (ofBigEndian bytes)
  have hvalue : UInt16.ofNat (ofBigEndian (bigEndian 2 value.toNat)) = value := by
    rw [ofBigEndian_of_lt (by have := value.toNat_lt; omega), UInt16.ofNat_toNat]
  rwa [hvalue] at h

theorem reads_u32 (value : UInt32) : Reads readU32 value (bigEndian 4 value.toNat) := by
  have h := (reads_bytes_of_length (length_bigEndian 4 value.toNat)).map
    fun bytes => UInt32.ofNat (ofBigEndian bytes)
  have hvalue : UInt32.ofNat (ofBigEndian (bigEndian 4 value.toNat)) = value := by
    rw [ofBigEndian_toNat, UInt32.ofNat_toNat]
  rwa [hvalue] at h

theorem reads_flag (value : Bool) : Reads readFlag value [if value then 1 else 0] := by
  have h := (reads_u8 (if value then 1 else 0)).map (· != 0)
  have hvalue : ((if value then 1 else 0 : UInt8) != 0) = value := by cases value <;> rfl
  rwa [hvalue] at h

theorem reads_mask {value : Bytes} (h : value.length < 0x10000) :
    Reads readMask value (bigEndian 2 value.length ++ value) := by
  have hcount : (UInt16.ofNat value.length).toNat = value.length := by
    rw [UInt16.toNat_ofNat', Nat.mod_eq_of_lt h]
  have hread := reads_u16 (UInt16.ofNat value.length)
  rw [hcount] at hread
  exact hread.bind (reads_bytes_of_length hcount.symm)

theorem reads_sized {value : Bytes} (h : value.length < 0x100000000) :
    Reads readSized value (bigEndian 4 value.length ++ value) := by
  have hcount : (UInt32.ofNat value.length).toNat = value.length := by
    rw [UInt32.toNat_ofNat', Nat.mod_eq_of_lt h]
  have hread := reads_u32 (UInt32.ofNat value.length)
  rw [hcount] at hread
  exact hread.bind (reads_bytes_of_length hcount.symm)

end Buffer

namespace Filled

/-- Whatever the target held, reading sets it to `value` and takes exactly `bytes`. -/
def Recovers {α : Type} (fill : α → Buffer → Filled α) (value : α) (bytes : Bytes) : Prop :=
  ∀ target passed rest,
    fill target ⟨passed, bytes ++ rest⟩ = ⟨value, .ok (), ⟨passed ++ bytes, rest⟩⟩

theorem recovers_overwrite {α : Type} {read : BufferM α} {value : α} {bytes : Bytes}
    (h : Buffer.Reads read value bytes) :
    Recovers (fun target => overwrite target read) value bytes := by
  intro target passed rest
  simp only [overwrite, h passed rest]

end Filled

namespace Layout

open Filled Buffer

/-- Reading a structure undoes writing it. -/
theorem recovers_fill :
    ∀ {layout : Layout} {value : layout.Value} {bytes : Bytes},
      layout.encode value = .ok bytes → Recovers layout.fill value bytes
  | u8, value, _, h => by
    cases h
    exact recovers_overwrite (reads_u8 value)
  | u16, value, _, h => by
    cases h
    exact recovers_overwrite (reads_u16 value)
  | u32, value, _, h => by
    cases h
    exact recovers_overwrite (reads_u32 value)
  | flag, value, _, h => by
    cases h
    exact recovers_overwrite (reads_flag value)
  | block _, value, _, h => by
    cases h
    exact recovers_overwrite (reads_block value)
  | mask, value, _, h => by
    rw [encode_mask] at h
    split at h
    · rename_i hlength
      cases h
      exact recovers_overwrite (reads_mask hlength)
    · cases h
  | sized, value, _, h => by
    rw [encode_sized] at h
    split at h
    · rename_i hlength
      cases h
      exact recovers_overwrite (reads_sized hlength)
    · cases h
  | record _ fields, _, _, h => @recovers_fill fields _ _ h
  | field _ _ head rest, (first, others), _, h => by
    rw [encode_field] at h
    obtain ⟨a, b, ha, hb, rfl⟩ := append_eq_ok.mp h
    intro (target, targets) passed suffix
    have hhead := recovers_fill ha target passed (b ++ suffix)
    have hrest := recovers_fill hb targets (passed ++ a) suffix
    simp only [fill, List.append_assoc, hhead, andThen, hrest, Filled.map]
  | done, (), _, h => by
    rw [encode_done] at h
    cases h
    intro () passed suffix
    rw [List.append_nil]
    rfl

end Layout

namespace Wire

variable {α : Type} [Wire α]

theorem recovers_fill {a : α} {bytes : Bytes} (h : encode a = .ok bytes) :
    Filled.Recovers fill a bytes := by
  intro target passed rest
  simp only [fill, Layout.recovers_fill h (toValue target) passed rest, Filled.map,
    ofValue_toValue]

theorem decode_append [Inhabited α] {a : α} {bytes : Bytes} (h : encode a = .ok bytes)
    (rest : Bytes) : decode α (bytes ++ rest) = .ok a := by
  have hfill := Layout.recovers_fill h (toValue (default : α)) [] rest
  simp only [decode, Layout.decode, Buffer.ofBytes, hfill, Filled.toExcept, Except.map,
    ofValue_toValue]

/-- An encoding shows where it ends. -/
theorem encode_append_inj [Inhabited α] {a a' : α} {bytes bytes' rest rest' : Bytes}
    (h : encode a = .ok bytes) (h' : encode a' = .ok bytes')
    (happend : bytes ++ rest = bytes' ++ rest') : a = a' ∧ rest = rest' := by
  have hdecode : (.ok a : Except Error α) = .ok a' := by
    rw [← decode_append h rest, happend, decode_append h' rest']
  have ha : a = a' := Except.ok.inj hdecode
  subst ha
  have hbytes : bytes = bytes' := Except.ok.inj (h.symm.trans h')
  subst hbytes
  exact ⟨rfl, List.append_cancel_left happend⟩

end Wire

/-! ## Field lists -/

namespace FieldKind

open Filled

theorem layoutFault?_eq_none {kinds : List FieldKind} :
    layoutFault? kinds = none ↔
      ¬ (kinds.any (·.policy == .prefixed) && kinds.countP (·.policy == .remainder) > 0) ∧
      kinds.countP (·.policy == .remainder) ≤ 1 ∧
      ∀ kind ∈ (kinds.dropWhile (·.policy != .remainder)).tail, kind.fixedSize ≠ none := by
  unfold layoutFault?
  dsimp only
  split
  · rename_i hprefixed
    exact ⟨nofun, fun h => absurd hprefixed h.1⟩
  · rename_i hprefixed
    split
    · rename_i hsecond
      exact ⟨nofun, fun h => absurd h.2.1 (by omega)⟩
    · rename_i hsecond
      split
      · rename_i hvariable
        obtain ⟨kind, hmem, hnone⟩ := List.any_eq_true.mp hvariable
        exact ⟨nofun, fun h => absurd (Option.isNone_iff_eq_none.mp hnone) (h.2.2 kind hmem)⟩
      · rename_i hvariable
        refine ⟨fun _ => ⟨hprefixed, by omega, fun kind hmem hnone => hvariable ?_⟩, fun _ => rfl⟩
        exact List.any_eq_true.mpr ⟨kind, hmem, Option.isNone_iff_eq_none.mpr hnone⟩

theorem policy_eq_remainder {kind : FieldKind} : kind.policy = .remainder ↔ kind = .remainder := by
  cases kind <;> simp [policy]

theorem layoutFault?_of_no_remainder {kinds : List FieldKind}
    (h : ∀ kind ∈ kinds, kind.policy ≠ .remainder) : layoutFault? kinds = none := by
  have hcount : kinds.countP (·.policy == .remainder) = 0 := by
    rw [List.countP_eq_zero]
    intro kind hmem
    simpa using h kind hmem
  have hdrop : kinds.dropWhile (·.policy != .remainder) = [] := by
    rw [List.dropWhile_eq_nil_iff]
    intro kind hmem
    simpa using h kind hmem
  rw [layoutFault?_eq_none, hcount, hdrop]
  simp

theorem layoutFault?_tail {kind : FieldKind} {kinds : List FieldKind}
    (h : layoutFault? (kind :: kinds) = none) : layoutFault? kinds = none := by
  obtain ⟨hprefixed, hcount, hfixed⟩ := layoutFault?_eq_none.mp h
  by_cases hremainder : kind.policy = .remainder
  · -- the head is the only remainder of the list
    have hnone : kinds.countP (·.policy == .remainder) = 0 := by
      rw [List.countP_cons_of_pos (by simpa using hremainder)] at hcount
      omega
    apply layoutFault?_of_no_remainder
    intro other hmem
    simpa using List.countP_eq_zero.mp hnone other hmem
  · have hcons : (kind :: kinds).countP (·.policy == .remainder) =
        kinds.countP (·.policy == .remainder) := List.countP_cons_of_neg (by simpa using hremainder)
    rw [hcons] at hprefixed hcount
    rw [List.dropWhile_cons_of_pos (by simpa using hremainder)] at hfixed
    refine layoutFault?_eq_none.mpr ⟨fun hany => hprefixed ?_, hcount, hfixed⟩
    obtain ⟨hany, hpositive⟩ := Bool.and_eq_true_iff.mp hany
    rw [List.any_cons, hany, Bool.or_true, hpositive, Bool.true_and]

theorem fixed_after_remainder {kinds : List FieldKind}
    (h : layoutFault? (.remainder :: kinds) = none) : ∀ kind ∈ kinds, kind.fixedSize ≠ none := by
  have hfixed := (layoutFault?_eq_none.mp h).2.2
  rwa [List.dropWhile_cons_of_neg (by simp [policy]), List.tail_cons] at hfixed

/-- Before a remainder there is no other one, and behind it every size is static. -/
theorem around_remainder {before after : List FieldKind}
    (h : layoutFault? (before ++ .remainder :: after) = none) :
    (∀ kind ∈ before, kind ≠ .remainder) ∧ ∀ kind ∈ after, kind.fixedSize ≠ none := by
  induction before with
  | nil => exact ⟨fun kind hmem => absurd hmem List.not_mem_nil, fixed_after_remainder h⟩
  | cons kind before ih =>
    obtain ⟨hbefore, hafter⟩ := ih (layoutFault?_tail h)
    refine ⟨fun other hmem => ?_, hafter⟩
    rcases List.mem_cons.mp hmem with rfl | hmem
    · rintro rfl
      exact fixed_after_remainder h .remainder (by simp) rfl
    · exact hbefore other hmem

/-- A counted structure is the length of its bytes, if the count can hold it, and the bytes. -/
theorem encode_sizedPlain_eq_ok {layout : Layout} {value : layout.Value} {bytes : Bytes}
    (h : encode (sizedPlain layout) value = .ok bytes) :
    ∃ inner, layout.encode value = .ok inner ∧ inner.length < 0x100000000 ∧
      bytes = bigEndian 4 inner.length ++ inner := by
  rw [encode_sizedPlain] at h
  obtain ⟨inner, hinner, h⟩ := bind_eq_ok.mp h
  split at h
  · rename_i hlength
    exact ⟨inner, hinner, hlength, (Except.ok.inj h).symm⟩
  · cases h

theorem recovers_fillSized {layout : Layout} {value : layout.Value} {bytes : Bytes}
    (h : layout.encode value = .ok bytes) (hlength : bytes.length < 0x100000000) :
    Recovers (fillSized layout) value (bigEndian 4 bytes.length ++ bytes) := by
  intro target passed rest
  have hinner := Layout.recovers_fill h target [] []
  rw [List.append_nil] at hinner
  simp only [fillSized, Buffer.reads_sized hlength passed rest, Buffer.ofBytes, hinner,
    Buffer.remaining, List.length_nil, if_true]

theorem recovers_fill {kind : FieldKind} (hkind : kind.policy ≠ .remainder) {value : kind.Value}
    {bytes : Bytes} (h : kind.encode value = .ok bytes) (trailing : Nat) :
    Recovers (kind.fill trailing) value bytes := by
  cases kind with
  | plain layout => exact @Layout.recovers_fill layout _ _ h
  | sized => exact @Layout.recovers_fill .sized _ _ h
  | sizedPlain layout =>
    obtain ⟨inner, hinner, hlength, rfl⟩ := encode_sizedPlain_eq_ok h
    exact recovers_fillSized hinner hlength
  | remainder => exact absurd rfl hkind

/-- A remainder takes what the fields after it leave. -/
theorem fill_remainder (target value rest passed : Bytes) :
    fill rest.length .remainder target ⟨passed, value ++ rest⟩ =
      ⟨value, .ok (), ⟨passed ++ value, rest⟩⟩ := by
  have hcount : (value ++ rest).length - rest.length = value.length := by
    rw [List.length_append, Nat.add_sub_cancel]
  have hread := recovers_overwrite (Buffer.reads_bytes value) target passed rest
  simp only [fill, fillRemainder, Buffer.remaining, hcount]
  rw [if_neg (by simp)]
  exact hread

end FieldKind

namespace Field

theorem length_of_fixed {fields : List Field} {bytes : Bytes}
    (hfixed : ∀ field ∈ fields, field.kind.fixedSize ≠ none) (h : encodeEach fields = .ok bytes) :
    bytes.length = FieldKind.trailingSize (fields.map kind) := by
  induction fields generalizing bytes with
  | nil =>
    cases h
    rfl
  | cons field fields ih =>
    obtain ⟨a, b, ha, hb, rfl⟩ := append_eq_ok.mp h
    obtain ⟨size, hsize⟩ := Option.ne_none_iff_exists'.mp (hfixed field (List.mem_cons_self ..))
    obtain ⟨a', ha', hlength⟩ := FieldKind.encode_of_fixedSize hsize field.value
    cases ha.symm.trans ha'
    have hrest := ih (fun other hmem => hfixed other (List.mem_cons_of_mem _ hmem)) hb
    rw [List.length_append, hlength, hrest]
    simp [FieldKind.trailingSize, hsize]

theorem fillEach_encodeEach {fields : List Field} {bytes suffix : Bytes}
    (hlayout : FieldKind.layoutFault? (fields.map kind) = none)
    (h : encodeEach fields = .ok bytes)
    (hsuffix : (∃ field ∈ fields, field.kind = .remainder) → suffix = [])
    (targets : FieldKind.Values (fields.map kind)) (passed : Bytes) :
    FieldKind.fillEach (fields.map kind) targets ⟨passed, bytes ++ suffix⟩ =
      ⟨values fields, .ok (), ⟨passed ++ bytes, suffix⟩⟩ := by
  induction fields generalizing bytes passed with
  | nil =>
    cases h
    rw [List.append_nil]
    rfl
  | cons field fields ih =>
    obtain ⟨a, b, ha, hb, rfl⟩ := append_eq_ok.mp h
    obtain ⟨target, targets⟩ := targets
    have hrest := ih (FieldKind.layoutFault?_tail hlayout) hb
      (fun ⟨other, hmem, hkind⟩ => hsuffix ⟨other, List.mem_cons_of_mem _ hmem, hkind⟩)
      targets (passed ++ a)
    have hhead : field.kind.fill (FieldKind.trailingSize (fields.map kind)) target
        ⟨passed, a ++ (b ++ suffix)⟩ = ⟨field.value, .ok (), ⟨passed ++ a, b ++ suffix⟩⟩ := by
      by_cases hremainder : field.kind.policy = .remainder
      · obtain ⟨fieldKind, value⟩ := field
        cases fieldKind with
        | remainder =>
          cases ha
          have hnil := hsuffix ⟨_, List.mem_cons_self .., rfl⟩
          subst hnil
          have hfixed := FieldKind.fixed_after_remainder hlayout
          have hlength := length_of_fixed
            (fun other hmem => hfixed _ (List.mem_map_of_mem hmem)) hb
          rw [List.append_nil, ← hlength]
          exact FieldKind.fill_remainder target value b passed
        | plain _ | sized | sizedPlain _ => cases hremainder
      · exact FieldKind.recovers_fill hremainder ha _ target passed (b ++ suffix)
    change (field.kind.fill _ target ⟨passed, a ++ b ++ suffix⟩).andThen targets _ = _
    rw [List.append_assoc, hhead]
    simp only [Filled.andThen, hrest, Filled.map, values, List.append_assoc]

/-- An encoding that is all there is gives the values back. -/
theorem toExcept_fillAll {fields : List Field} {bytes : Bytes} (h : encode fields = .ok bytes)
    (targets : FieldKind.Values (fields.map kind)) :
    (FieldKind.fillAll (fields.map kind) targets (Buffer.ofBytes bytes)).toExcept =
      .ok (values fields) := by
  obtain ⟨hlayout, hbytes⟩ := encode_eq_ok.mp h
  have hfill := fillEach_encodeEach hlayout hbytes (fun _ => rfl) targets []
  rw [List.append_nil] at hfill
  simp only [FieldKind.fillAll, hlayout, Buffer.ofBytes, hfill, Filled.toExcept, Except.map]

/-- Decoding undoes encoding. For every field list that has an encoding, a reader of the same kinds
that meets this encoding at its cursor succeeds, whatever stands before the cursor and whatever
its targets held: every target gets the value of its field, and the cursor stops right behind the
encoding. What follows the encoding is arbitrary, or nothing if the list has a remainder. -/
theorem fillAll_encode {fields : List Field} {bytes suffix : Bytes}
    (hencode : encode fields = .ok bytes)
    (hsuffix : (∃ field ∈ fields, field.kind = .remainder) → suffix = [])
    (targets : FieldKind.Values (fields.map kind)) {buffer : Buffer}
    (hahead : buffer.ahead = bytes ++ suffix) :
    FieldKind.fillAll (fields.map kind) targets buffer =
      ⟨values fields, .ok (), buffer.advance bytes.length⟩ := by
  obtain ⟨hlayout, hbytes⟩ := encode_eq_ok.mp hencode
  obtain ⟨passed, ahead⟩ := buffer
  change ahead = bytes ++ suffix at hahead
  subst hahead
  have hfill := fillEach_encodeEach hlayout hbytes hsuffix targets passed
  simp only [FieldKind.fillAll, hlayout, hfill, Buffer.advance, List.take_left, List.drop_left]

/-- Counted bytes, a counted selection and a flag, read over other values and with more bytes behind
them; and a remainder that takes what stands before a fixed structure at the end of the buffer. -/
theorem fillAll_encode_samples :
    FieldKind.fillAll [.sized, .sizedPlain (Wire.layout PcrSelection), .plain .flag]
        ([9], ([0, 0, 0], ()), false, ())
        ⟨[5], [0, 0, 0, 2, 7, 8, 0, 0, 0, 3, 0, 1, 255, 1, 4, 4]⟩ =
      ⟨([7, 8], ([255], ()), true, ()), .ok (),
        ⟨[5, 0, 0, 0, 2, 7, 8, 0, 0, 0, 3, 0, 1, 255, 1], [4, 4]⟩⟩ ∧
    FieldKind.fillAll [.plain .u8, .remainder, .plain .u16] (0, [9], 0, ())
        ⟨[5], [1, 2, 3, 0, 4]⟩ =
      ⟨(1, [2, 3], 4, ()), .ok (), ⟨[5, 1, 2, 3, 0, 4], []⟩⟩ := by
  constructor
  · exact @fillAll_encode [.sized [7, 8], .sizedOfWire (⟨[255]⟩ : PcrSelection), .flag true]
      [0, 0, 0, 2, 7, 8, 0, 0, 0, 3, 0, 1, 255, 1] [4, 4] rfl (by simp [sized, sizedOfWire, flag])
      _ _ rfl
  · exact @fillAll_encode [.u8 1, .remainder [2, 3], .u16 4] [1, 2, 3, 0, 4] [] rfl (fun _ => rfl)
      _ _ rfl

end Field

end TrustedModule
