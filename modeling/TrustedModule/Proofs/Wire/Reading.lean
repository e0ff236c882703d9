import TrustedModule.Proofs.Wire.RoundTrip

/-!
# What readers take

A reader moves the cursor over some bytes and looks at none but those ahead of it. One that succeeds
took bytes that its value determines, a flag apart, which can be read from any byte. Two readings
that have the same bytes ahead of them come to the same end, wherever the cursor stands and whatever
their targets hold.
-/

set_option autoImplicit false

namespace TrustedModule

namespace Buffer

/-! ## Bytes taken -/

/-- Between the two states the cursor went over exactly these bytes. -/
def Took (before after : Buffer) (taken : Bytes) : Prop :=
  before.ahead = taken ++ after.ahead ∧ after.passed = before.passed ++ taken

section Taking

variable {before middle after : Buffer} {taken first second : Bytes}

theorem Took.refl (buffer : Buffer) : Took buffer buffer [] :=
  ⟨rfl, (List.append_nil _).symm⟩

theorem Took.trans (hfirst : Took before middle first) (hsecond : Took middle after second) :
    Took before after (first ++ second) := by
  constructor
  · rw [hfirst.1, hsecond.1, List.append_assoc]
  · rw [hsecond.2, hfirst.2, List.append_assoc]

theorem Took.length (h : Took before after taken) :
    after.ahead.length + taken.length = before.ahead.length := by
  rw [h.1, List.length_append, Nat.add_comm]

theorem took_advance (count : Nat) (buffer : Buffer) :
    Took buffer (buffer.advance count) (buffer.ahead.take count) :=
  ⟨(List.take_append_drop count buffer.ahead).symm, rfl⟩

end Taking

section Readers

variable {count : Nat} {buffer after : Buffer}

theorem took_readBlock {value : Block count} (h : readBlock count buffer = (.ok value, after)) :
    Took buffer after value.bytes := by
  unfold readBlock at h
  split at h
  · cases h
    exact took_advance count buffer
  · cases h

theorem took_readBytes {bytes : Bytes} (h : readBytes count buffer = (.ok bytes, after)) :
    bytes.length = count ∧ Took buffer after bytes := by
  obtain ⟨block, middle, hblock, h⟩ := bind_eq_ok h
  cases h
  exact ⟨block.length_bytes, took_readBlock hblock⟩

theorem took_readU8 {value : UInt8} (h : readU8 buffer = (.ok value, after)) :
    Took buffer after [value] := by
  obtain ⟨bytes, middle, hbytes, h⟩ := bind_eq_ok h
  cases h
  obtain ⟨hlength, htook⟩ := took_readBytes hbytes
  obtain ⟨byte, rfl⟩ := List.length_eq_one_iff.mp hlength
  have hbyte : UInt8.ofNat (ofBigEndian [byte]) = byte := by simp [ofBigEndian]
  rwa [hbyte]

theorem took_readU16 {value : UInt16} (h : readU16 buffer = (.ok value, after)) :
    Took buffer after (bigEndian 2 value.toNat) := by
  obtain ⟨bytes, middle, hbytes, h⟩ := bind_eq_ok h
  cases h
  obtain ⟨hlength, htook⟩ := took_readBytes hbytes
  rwa [bigEndian_ofBigEndian_u16 hlength]

theorem took_readU32 {value : UInt32} (h : readU32 buffer = (.ok value, after)) :
    Took buffer after (bigEndian 4 value.toNat) := by
  obtain ⟨bytes, middle, hbytes, h⟩ := bind_eq_ok h
  cases h
  obtain ⟨hlength, htook⟩ := took_readBytes hbytes
  rwa [bigEndian_ofBigEndian_u32 hlength]

/-- The one reader that forgets which byte it took. -/
theorem took_readFlag {value : Bool} (h : readFlag buffer = (.ok value, after)) :
    ∃ byte, value = (byte != 0) ∧ Took buffer after [byte] := by
  obtain ⟨byte, middle, hbyte, h⟩ := bind_eq_ok h
  cases h
  exact ⟨byte, rfl, took_readU8 hbyte⟩

theorem took_readSized {bytes : Bytes} (h : readSized buffer = (.ok bytes, after)) :
    bytes.length < 0x100000000 ∧ Took buffer after (bigEndian 4 bytes.length ++ bytes) := by
  obtain ⟨size, middle, hsize, h⟩ := bind_eq_ok h
  obtain ⟨hlength, htook⟩ := took_readBytes h
  rw [hlength]
  exact ⟨size.toNat_lt, (took_readU32 hsize).trans htook⟩

theorem took_readMask {bytes : Bytes} (h : readMask buffer = (.ok bytes, after)) :
    bytes.length < 0x10000 ∧ Took buffer after (bigEndian 2 bytes.length ++ bytes) := by
  obtain ⟨size, middle, hsize, h⟩ := bind_eq_ok h
  obtain ⟨hlength, htook⟩ := took_readBytes h
  rw [hlength]
  exact ⟨size.toNat_lt, (took_readU16 hsize).trans htook⟩

end Readers

/-! ## Readers look ahead only -/

/-- The result of a read and the bytes that it takes, if any, depend on the bytes ahead alone. -/
def Uniform {α : Type} (read : BufferM α) : Prop :=
  ∀ buffer other, buffer.ahead = other.ahead →
    ∃ result after after' taken, read buffer = (result, after) ∧ read other = (result, after') ∧
      Took buffer after taken ∧ Took other after' taken

/-- What is left is the same as well. -/
theorem Took.ahead_eq {buffer other after after' : Buffer} {taken : Bytes}
    (h : Took buffer after taken) (h' : Took other after' taken)
    (hahead : buffer.ahead = other.ahead) : after.ahead = after'.ahead := by
  rw [h.1, h'.1] at hahead
  exact List.append_cancel_left hahead

theorem uniform_pure {α : Type} (a : α) : Uniform (pure a) :=
  fun buffer other _ => ⟨.ok a, buffer, other, [], rfl, rfl, .refl buffer, .refl other⟩

theorem Uniform.bind {α β : Type} {first : BufferM α} {next : α → BufferM β}
    (hfirst : Uniform first) (hnext : ∀ a, Uniform (next a)) : Uniform (first >>= next) := by
  intro buffer other hahead
  obtain ⟨result, middle, middle', taken, hread, hread', htook, htook'⟩ :=
    hfirst buffer other hahead
  cases result with
  | error error =>
    rw [bind_of_error hread, bind_of_error hread']
    exact ⟨_, _, _, taken, rfl, rfl, htook, htook'⟩
  | ok a =>
    rw [bind_of_ok hread, bind_of_ok hread']
    obtain ⟨result, after, after', more, hread, hread', hmore, hmore'⟩ :=
      hnext a middle middle' (htook.ahead_eq htook' hahead)
    exact ⟨result, after, after', taken ++ more, hread, hread', htook.trans hmore,
      htook'.trans hmore'⟩

theorem uniform_readBlock (count : Nat) : Uniform (readBlock count) := by
  intro buffer other hahead
  by_cases hcount : count ≤ buffer.ahead.length
  · have htook' := took_advance count other
    rw [readBlock_of_le hcount, readBlock_of_le (hahead ▸ hcount)]
    simp only [← hahead] at htook' ⊢
    exact ⟨_, _, _, _, rfl, rfl, took_advance count buffer, htook'⟩
  · have hshort : buffer.remaining < count := Nat.lt_of_not_le hcount
    have hsame : buffer.remaining = other.remaining := congrArg List.length hahead
    rw [readBlock_of_lt hshort, readBlock_of_lt (hsame ▸ hshort), ← hsame]
    exact ⟨_, _, _, [], rfl, rfl, .refl buffer, .refl other⟩

theorem uniform_readBytes (count : Nat) : Uniform (readBytes count) :=
  (uniform_readBlock count).bind fun block => uniform_pure block.bytes

theorem uniform_readU8 : Uniform readU8 :=
  (uniform_readBytes 1).bind fun _ => uniform_pure _

theorem uniform_readU16 : Uniform readU16 :=
  (uniform_readBytes 2).bind fun _ => uniform_pure _

theorem uniform_readU32 : Uniform readU32 :=
  (uniform_readBytes 4).bind fun _ => uniform_pure _

theorem uniform_readFlag : Uniform readFlag :=
  uniform_readU8.bind fun _ => uniform_pure _

theorem uniform_readSized : Uniform readSized :=
  uniform_readU32.bind fun size => uniform_readBytes size.toNat

theorem uniform_readMask : Uniform readMask :=
  uniform_readU16.bind fun size => uniform_readBytes size.toNat

/-! ## Enough bytes -/

/-- The read succeeds wherever that many bytes are ahead, and goes over exactly these. -/
def Takes {α : Type} (read : BufferM α) (count : Nat) : Prop :=
  ∀ buffer : Buffer, count ≤ buffer.remaining → ∃ a, read buffer = (.ok a, buffer.advance count)

theorem takes_readBlock (count : Nat) : Takes (readBlock count) count :=
  fun _ h => ⟨_, readBlock_of_le h⟩

theorem Takes.map {α β : Type} {read : BufferM α} {count : Nat} (h : Takes read count)
    (f : α → β) : Takes (do return f (← read)) count := by
  intro buffer hle
  obtain ⟨a, hread⟩ := h buffer hle
  exact ⟨f a, bind_of_ok hread⟩

theorem takes_readBytes (count : Nat) : Takes (readBytes count) count :=
  (takes_readBlock count).map _

theorem takes_readU8 : Takes readU8 1 := (takes_readBytes 1).map _

theorem takes_readU16 : Takes readU16 2 := (takes_readBytes 2).map _

theorem takes_readU32 : Takes readU32 4 := (takes_readBytes 4).map _

theorem takes_readFlag : Takes readFlag 1 := takes_readU8.map _

theorem advance_advance (buffer : Buffer) (count more : Nat) :
    (buffer.advance count).advance more = buffer.advance (count + more) := by
  simp [advance, List.take_add]

theorem remaining_advance (buffer : Buffer) (count : Nat) :
    (buffer.advance count).remaining = buffer.remaining - count := by
  simp [advance, remaining]

end Buffer

/-! ## Targets -/

namespace Filled

open Buffer

/-- Two readings, of two buffers into two targets, came to the same end: one result, the same bytes
taken, and equal targets if all of them was read. -/
structure Agree {α : Type} (buffer other : Buffer) (first second : Filled α) : Prop where
  result : first.result = second.result
  taken : ∃ taken, Took buffer first.buffer taken ∧ Took other second.buffer taken
  target : first.result = .ok () → first.target = second.target

/-- What a target held before does not matter, nor does anything but the bytes ahead. -/
def Uniform {α : Type} (fill : α → Buffer → Filled α) : Prop :=
  ∀ target target' buffer other, buffer.ahead = other.ahead →
    Agree buffer other (fill target buffer) (fill target' other)

theorem overwrite_eq_ok {α : Type} {target value : α} {read : BufferM α} {buffer after : Buffer}
    (h : overwrite target read buffer = ⟨value, .ok (), after⟩) :
    read buffer = (.ok value, after) := by
  unfold overwrite at h
  split at h
  · rename_i hread
    cases h
    exact hread
  · cases h

theorem andThen_eq_ok {α β : Type} {first : Filled α} {next b : β} {a : α}
    {fill : β → Buffer → Filled β} {after : Buffer}
    (h : first.andThen next fill = ⟨(a, b), .ok (), after⟩) :
    ∃ middle, first = ⟨a, .ok (), middle⟩ ∧ fill next middle = ⟨b, .ok (), after⟩ := by
  obtain ⟨target, result, middle⟩ := first
  cases result with
  | error error => cases h
  | ok _ =>
    cases hnext : fill next middle with
    | mk other result last =>
      simp only [andThen, hnext, Filled.map, Filled.mk.injEq, Prod.mk.injEq] at h
      obtain ⟨⟨rfl, rfl⟩, rfl, rfl⟩ := h
      exact ⟨middle, rfl, hnext⟩

theorem uniform_overwrite {α : Type} {read : BufferM α} (h : Buffer.Uniform read) :
    Uniform fun target => overwrite target read := by
  intro target target' buffer other hahead
  obtain ⟨result, after, after', taken, hread, hread', htook, htook'⟩ := h buffer other hahead
  simp only [overwrite, hread, hread']
  cases result with
  | error error =>
    refine ⟨rfl, ⟨taken, htook, htook'⟩, fun hok => ?_⟩
    cases hok
  | ok value => exact ⟨rfl, ⟨taken, htook, htook'⟩, fun _ => rfl⟩

theorem Agree.andThen {α β : Type} {buffer other : Buffer} {first second : Filled α}
    {fill : β → Buffer → Filled β} (h : Agree buffer other first second)
    (hahead : buffer.ahead = other.ahead) (hfill : Uniform fill) (next next' : β) :
    Agree buffer other (first.andThen next fill) (second.andThen next' fill) := by
  obtain ⟨target, result, middle⟩ := first
  obtain ⟨target', result', middle'⟩ := second
  obtain ⟨hresult, ⟨taken, htook, htook'⟩, htarget⟩ := h
  dsimp only at hresult htook htook' htarget
  subst hresult
  cases result with
  | error error => exact ⟨rfl, ⟨taken, htook, htook'⟩, nofun⟩
  | ok _ =>
    obtain ⟨hresult, ⟨more, hmore, hmore'⟩, hrest⟩ :=
      hfill next next' middle middle' (htook.ahead_eq htook' hahead)
    refine ⟨hresult, ⟨taken ++ more, htook.trans hmore, htook'.trans hmore'⟩, fun hok => ?_⟩
    exact Prod.ext (htarget rfl) (hrest hok)

end Filled

namespace Layout

open Buffer Filled

theorem uniform_fill : ∀ layout : Layout, Filled.Uniform layout.fill
  | u8 => uniform_overwrite uniform_readU8
  | u16 => uniform_overwrite uniform_readU16
  | u32 => uniform_overwrite uniform_readU32
  | flag => uniform_overwrite uniform_readFlag
  | block size => uniform_overwrite (uniform_readBlock size)
  | mask => uniform_overwrite uniform_readMask
  | sized => uniform_overwrite uniform_readSized
  | record _ fields => fields.uniform_fill
  | field _ _ head rest => by
    intro (first, others) (first', others') buffer other hahead
    exact (head.uniform_fill first first' buffer other hahead).andThen hahead rest.uniform_fill ..
  | done => fun _ _ buffer other _ => ⟨rfl, ⟨[], .refl buffer, .refl other⟩, fun _ => rfl⟩

theorem overwrite_of_takes {α : Type} {read : BufferM α} {size : Nat} {buffer : Buffer}
    (h : Takes read size) (target : α) (hle : size ≤ buffer.remaining) :
    ∃ value, overwrite target read buffer = ⟨value, .ok (), buffer.advance size⟩ := by
  obtain ⟨value, hread⟩ := h buffer hle
  refine ⟨value, ?_⟩
  unfold overwrite
  rw [hread]

/-- A form of static size is read wherever that many bytes are ahead. -/
theorem fill_of_fixedSize :
    ∀ {layout : Layout} {size : Nat} {buffer : Buffer}, layout.fixedSize = some size →
      ∀ target : layout.Value, size ≤ buffer.remaining →
        ∃ value, layout.fill target buffer = ⟨value, .ok (), buffer.advance size⟩
  | u8, _, _, h, target, hle => by
    cases h
    exact overwrite_of_takes takes_readU8 target hle
  | u16, _, _, h, target, hle => by
    cases h
    exact overwrite_of_takes takes_readU16 target hle
  | u32, _, _, h, target, hle => by
    cases h
    exact overwrite_of_takes takes_readU32 target hle
  | flag, _, _, h, target, hle => by
    cases h
    exact overwrite_of_takes takes_readFlag target hle
  | block size, _, _, h, target, hle => by
    cases h
    exact overwrite_of_takes (takes_readBlock size) target hle
  | record _ fields, _, _, h, target, hle => @fill_of_fixedSize fields _ _ h target hle
  | field _ _ head rest, size, buffer, h, (first, others), hle => by
    obtain ⟨m, hm, h⟩ := Option.bind_eq_some_iff.mp h
    obtain ⟨n, hn, h⟩ := Option.bind_eq_some_iff.mp h
    cases h
    obtain ⟨value, hvalue⟩ := fill_of_fixedSize hm first (Nat.le_trans (Nat.le_add_right m n) hle)
    have hrest : n ≤ (buffer.advance m).remaining := by
      rw [remaining_advance]
      omega
    obtain ⟨values, hvalues⟩ := fill_of_fixedSize hn others hrest
    refine ⟨(value, values), ?_⟩
    simp only [fill, hvalue, andThen, hvalues, Filled.map, advance_advance]
  | done, _, buffer, h, (), _ => by
    cases h
    refine ⟨(), ?_⟩
    simp [fill, advance]

end Layout

/-- A structure of static size can be read off any byte string that is long enough. -/
theorem Wire.decode_of_length {α : Type} [Wire α] [Inhabited α] {size : Nat} {bytes : Bytes}
    (hsize : (Wire.layout α).fixedSize = some size) (hle : size ≤ bytes.length) :
    ∃ a, Wire.decode α bytes = .ok a := by
  obtain ⟨value, hfill⟩ := Layout.fill_of_fixedSize hsize (Wire.toValue (default : α))
    (show size ≤ (Buffer.ofBytes bytes).remaining from hle)
  refine ⟨Wire.ofValue value, ?_⟩
  unfold Wire.decode Layout.decode
  rw [hfill]
  rfl

namespace FieldKind

open Buffer Filled

theorem uniform_fillSized (layout : Layout) : Filled.Uniform (fillSized layout) := by
  intro target target' buffer other hahead
  obtain ⟨result, after, after', taken, hread, hread', htook, htook'⟩ :=
    uniform_readSized buffer other hahead
  simp only [fillSized, hread, hread']
  cases result with
  | error error =>
    refine ⟨rfl, ⟨taken, htook, htook'⟩, fun hok => ?_⟩
    cases hok
  | ok bytes =>
    -- both read the structure from the same counted bytes
    obtain ⟨hinner, ⟨used, hused, hused'⟩, htarget⟩ :=
      layout.uniform_fill target target' (ofBytes bytes) (ofBytes bytes) rfl
    have hleft := congrArg List.length (hused.ahead_eq hused' rfl)
    change remaining _ = remaining _ at hleft
    dsimp only
    rw [← hinner, ← hleft]
    refine ⟨rfl, ⟨taken, htook, htook'⟩, fun hok => htarget ?_⟩
    cases hfill : (layout.fill target (ofBytes bytes)).result with
    | error error =>
      rw [hfill] at hok
      cases hok
    | ok _ => rfl

theorem uniform_fillRemainder (trailing : Nat) : Filled.Uniform (fillRemainder trailing) := by
  intro target target' buffer other hahead
  have hremaining : buffer.remaining = other.remaining := congrArg List.length hahead
  unfold fillRemainder
  rw [← hremaining]
  split
  · exact ⟨rfl, ⟨[], .refl buffer, .refl other⟩, nofun⟩
  · exact uniform_overwrite (uniform_readBytes _) target target' buffer other hahead

theorem uniform_fill (trailing : Nat) : ∀ kind : FieldKind, Filled.Uniform (kind.fill trailing)
  | plain layout => layout.uniform_fill
  | sized => uniform_overwrite uniform_readSized
  | sizedPlain layout => uniform_fillSized layout
  | remainder => uniform_fillRemainder trailing

theorem uniform_fillEach (kinds : List FieldKind) : Filled.Uniform (fillEach kinds) := by
  induction kinds with
  | nil => exact fun _ _ buffer other _ => ⟨rfl, ⟨[], .refl buffer, .refl other⟩, fun _ => rfl⟩
  | cons kind kinds ih =>
    intro (first, others) (first', others') buffer other hahead
    exact (uniform_fill _ kind first first' buffer other hahead).andThen hahead ih ..

theorem uniform_fillAll (kinds : List FieldKind) : Filled.Uniform (fillAll kinds) := by
  intro targets targets' buffer other hahead
  unfold fillAll
  cases layoutFault? kinds with
  | some fault => exact ⟨rfl, ⟨[], .refl buffer, .refl other⟩, nofun⟩
  | none => exact uniform_fillEach kinds targets targets' buffer other hahead

end FieldKind

end TrustedModule
