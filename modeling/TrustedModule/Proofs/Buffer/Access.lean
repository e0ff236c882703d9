import TrustedModule.Proofs.Buffer.Failure
import TrustedModule.Proofs.Wire.Absorption
import TrustedModule.Proofs.Wire.Sizes

/-!
# Accesses to a buffer

Writes, patches, reads and resets follow each other on one buffer in any order. What an access does
depends on its kind: a write appends and leaves the cursor where it is, a patch exchanges four bytes
in place or changes nothing, a read hands out the bytes at the cursor and goes over them, or asks
for more than there are. All of this is said of the contents and the cursor, not of the two halves
that a buffer is kept in.
-/

set_option autoImplicit false

namespace TrustedModule

/-- A target that is asked for after it was read into gives what the read gave. -/
theorem Filled.toExcept_overwrite {α : Type} (target : α) (read : BufferM α) (buffer : Buffer) :
    ((overwrite target read buffer).toExcept, (overwrite target read buffer).buffer) =
      read buffer := by
  unfold overwrite
  split
  · rename_i hread
    rw [hread]
    rfl
  · rename_i hread
    rw [hread]
    rfl

namespace Buffer

/-- One use of a buffer, with its arguments. -/
inductive Access where
  | writeU8 (value : UInt8)
  | writeU16 (value : UInt16)
  | writeU32 (value : UInt32)
  | writeBytes (bytes : Bytes)
  | writeSized (bytes : Bytes)
  | patchU32 (position : UInt64) (value : UInt32)
  | readU8
  | readU16
  | readU32
  | readBytes (count : Nat)
  /-- Reads as many bytes as the destination has, into it. -/
  | readInto {size : Nat} (destination : Block size)
  | readSized
  | readRemaining
  | reset
  deriving DecidableEq, Repr

namespace Access

/-- What an access hands out where it succeeds. -/
inductive Answer where
  | done
  | u8 (value : UInt8)
  | u16 (value : UInt16)
  | u32 (value : UInt32)
  | bytes (value : Bytes)
  deriving DecidableEq, Repr

/-- The bytes that were handed out, those of a number included. -/
def Answer.spelled : Answer → Bytes
  | done => []
  | u8 value => [value]
  | u16 value => bigEndian 2 value.toNat
  | u32 value => bigEndian 4 value.toNat
  | bytes value => value

def perform : Access → BufferM Answer
  | writeU8 value => do Buffer.writeU8 value; return .done
  | writeU16 value => do Buffer.writeU16 value; return .done
  | writeU32 value => do Buffer.writeU32 value; return .done
  | writeBytes bytes => do Buffer.writeBytes bytes; return .done
  | writeSized bytes => do Buffer.writeSized bytes; return .done
  | patchU32 position value => do Buffer.patchU32 position value; return .done
  | readU8 => return .u8 (← Buffer.readU8)
  | readU16 => return .u16 (← Buffer.readU16)
  | readU32 => return .u32 (← Buffer.readU32)
  | readBytes count => return .bytes (← Buffer.readBytes count)
  | @readInto size destination => fun buffer =>
    let filled := (Layout.block size).fill destination buffer
    (filled.toExcept.map fun block => .bytes block.bytes, filled.buffer)
  | readSized => return .bytes (← Buffer.readSized)
  | readRemaining => return .bytes (← Buffer.readRemaining)
  | reset => fun buffer => (.ok .done, buffer.reset)

/-- The accesses one after the other, whether or not they succeed. -/
def performAll : List Access → Buffer → List (Except Error Answer) × Buffer
  | [], buffer => ([], buffer)
  | access :: rest, buffer =>
    let (answer, next) := access.perform buffer
    let (answers, last) := performAll rest next
    (answer :: answers, last)

/-! ## What an access may do -/

/-- What a write appends, or why it refuses to; other accesses write nothing. -/
def written? : Access → Option (Except Error Bytes)
  | writeU8 value => some (.ok [value])
  | writeU16 value => some (.ok (bigEndian 2 value.toNat))
  | writeU32 value => some (.ok (bigEndian 4 value.toNat))
  | writeBytes bytes => some (.ok bytes)
  | writeSized bytes =>
    if bytes.length < 0x100000000 then some (.ok (bigEndian 4 bytes.length ++ bytes))
    else some (.error (.overflow (.sizedBytes bytes.length)))
  | _ => none

/-- How many of the bytes at the cursor a read goes over, if they are there; other accesses read
nothing. A sized read goes over its count and over as many bytes as the count says. -/
def extent? (buffer : Buffer) : Access → Option Nat
  | readU8 => some 1
  | readU16 => some 2
  | readU32 => some 4
  | readBytes count => some count
  | @readInto size _ => some size
  | readSized =>
    some (4 + ofBigEndian (buffer.contents.extract buffer.position (buffer.position + 4)))
  | readRemaining => some buffer.remaining
  | _ => none

/-- How many of these bytes are a count, which is not handed out. -/
def countWidth : Access → Nat
  | readSized => 4
  | _ => 0

end Access

/-- The read went over `extent` bytes at the cursor, and handed out those behind the first `skipped`
of them. -/
structure WentOver (before after : Buffer) (skipped extent : Nat) (bytes : Bytes) : Prop where
  contents_eq : after.contents = before.contents
  position_eq : after.position = before.position + extent
  bytes_eq : bytes = before.contents.extract (before.position + skipped) (before.position + extent)

/-- The read asked for more bytes than were ahead. Nothing has changed, except that a count of
`skipped` bytes has been gone over if there was one; then the bytes behind it were missing. -/
structure FellShort (before after : Buffer) (skipped extent : Nat) (error : Error) : Prop where
  contents_eq : after.contents = before.contents
  position_eq : after.position =
    before.position + if skipped ≤ before.remaining then skipped else 0
  error_eq : error =
    .underflow (if skipped ≤ before.remaining then extent - skipped else skipped) after.remaining

/-- Four bytes stand at `position`, and an offset of 64 bits reaches behind them. -/
def HasFour (buffer : Buffer) (position : UInt64) : Prop :=
  position.toNat + 4 ≤ buffer.size ∧ position.toNat + 4 < UInt64.size

/-- The four bytes at `position` are exchanged, and nothing else. -/
structure Patched (before after : Buffer) (position : Nat) (value : UInt32) : Prop where
  size_eq : after.size = before.size
  position_eq : after.position = before.position
  inside : after.contents.extract position (position + 4) = bigEndian 4 value.toNat
  outside : ∀ i, i < position ∨ position + 4 ≤ i → after.contents[i]? = before.contents[i]?

/-- What an access makes of a buffer, by its kind. -/
inductive Access.Effect (before : Buffer) :
    Access → Except Error Access.Answer → Buffer → Prop where
  | wrote {access : Access} {bytes : Bytes} {after : Buffer} :
    access.written? = some (.ok bytes) → before.Grown after bytes →
      Effect before access (.ok .done) after
  | unwritten {access : Access} {error : Error} :
    access.written? = some (.error error) → Effect before access (.error error) before
  | patched {position : UInt64} {value : UInt32} {after : Buffer} :
    before.HasFour position → before.Patched after position.toNat value →
      Effect before (.patchU32 position value) (.ok .done) after
  | unpatched {position : UInt64} {value : UInt32} :
    ¬ before.HasFour position →
      Effect before (.patchU32 position value) (.error (.overflow (.patch position.toNat))) before
  | read {access : Access} {extent : Nat} {answer : Access.Answer} {after : Buffer} :
    access.extent? before = some extent → extent ≤ before.remaining →
      before.WentOver after access.countWidth extent answer.spelled →
      Effect before access (.ok answer) after
  | unread {access : Access} {extent : Nat} {error : Error} {after : Buffer} :
    access.extent? before = some extent → before.remaining < extent →
      before.FellShort after access.countWidth extent error →
      Effect before access (.error error) after
  | rewound {after : Buffer} :
    after.contents = before.contents → after.position = 0 →
      Effect before .reset (.ok .done) after

/-! ## The cursor -/

theorem position_le_size (buffer : Buffer) : buffer.position ≤ buffer.size :=
  Nat.le_trans (Nat.le_add_right ..) (Nat.le_of_eq buffer.position_add_remaining)

theorem remaining_eq (buffer : Buffer) : buffer.remaining = buffer.size - buffer.position := by
  rw [← buffer.position_add_remaining, Nat.add_sub_cancel_left]

/-! ## Reads -/

section Reads

variable {before after buffer : Buffer}

theorem extract_append_append (front middle rest : Bytes) :
    (front ++ (middle ++ rest)).extract front.length (front.length + middle.length) = middle := by
  rw [List.extract_eq_take_drop, List.drop_left, Nat.add_sub_cancel_left, List.take_left]

theorem extract_ahead {bytes rest : Bytes} (h : buffer.ahead = bytes ++ rest) :
    buffer.contents.extract buffer.position (buffer.position + bytes.length) = bytes := by
  rw [contents, h]
  exact extract_append_append ..

theorem Took.fits {taken : Bytes} (h : Took before after taken) :
    taken.length ≤ before.remaining :=
  Nat.le_trans (Nat.le_add_left ..) (Nat.le_of_eq h.length)

theorem Took.wentOver {count bytes : Bytes} (h : Took before after (count ++ bytes)) :
    before.WentOver after count.length (count.length + bytes.length) bytes where
  contents_eq := h.contents_eq
  position_eq := by
    rw [position, h.2, List.length_append, List.length_append]
    rfl
  bytes_eq := by
    have hcontents : before.contents = (before.passed ++ count) ++ (bytes ++ after.ahead) := by
      rw [contents, h.1, List.append_assoc, List.append_assoc]
    rw [hcontents, position, ← Nat.add_assoc, ← List.length_append, extract_append_append]

theorem Took.wentOver_all {taken : Bytes} (h : Took before after taken) :
    before.WentOver after 0 taken.length taken := by
  have hover := Took.wentOver (show Took before after ([] ++ taken) from h)
  rwa [List.length_nil, Nat.zero_add] at hover

theorem fellShort_behind_count {count extent : Nat} {error : Error}
    (hroom : count ≤ before.remaining) (hcontents : after.contents = before.contents)
    (hposition : after.position = before.position + count)
    (herror : error = .underflow (extent - count) after.remaining) :
    before.FellShort after count extent error where
  contents_eq := hcontents
  position_eq := by rw [if_pos hroom, hposition]
  error_eq := by rw [if_pos hroom, herror]

theorem fellShort_of_count {count : Nat} {error : Error} (hlack : buffer.remaining < count)
    (herror : error = .underflow count buffer.remaining) (extent : Nat) :
    buffer.FellShort buffer count extent error where
  contents_eq := rfl
  position_eq := by rw [if_neg (Nat.not_le_of_lt hlack), Nat.add_zero]
  error_eq := by rw [if_neg (Nat.not_le_of_lt hlack), herror]

/-- A read whose value is handed on by `f` ends as the read does. -/
theorem return_eq {α β : Type} (f : α → β) (read : BufferM α) (buffer : Buffer) :
    (do return f (← read) : BufferM β) buffer = ((read buffer).1.map f, (read buffer).2) := by
  cases hread : read buffer with
  | mk result after =>
    cases result with
    | error error => exact bind_of_error hread
    | ok a => exact bind_of_ok hread

/-- What comes of an access that reads and hands out what it read. -/
theorem effect_of_read {α : Type} {read : BufferM α} {toAnswer : α → Access.Answer}
    {access : Access} (hperform : access.perform = do return toAnswer (← read))
    (hok : ∀ a after, read buffer = (.ok a, after) → ∃ extent,
      access.extent? buffer = some extent ∧ extent ≤ buffer.remaining ∧
        buffer.WentOver after access.countWidth extent (toAnswer a).spelled)
    (herror : ∀ error after, read buffer = (.error error, after) → ∃ extent,
      access.extent? buffer = some extent ∧ buffer.remaining < extent ∧
        buffer.FellShort after access.countWidth extent error) :
    access.Effect buffer (access.perform buffer).1 (access.perform buffer).2 := by
  rw [hperform, return_eq]
  cases hread : read buffer with
  | mk result after =>
    cases result with
    | error error =>
      obtain ⟨extent, hextent, hlack, hshort⟩ := herror error after hread
      exact .unread hextent hlack hshort
    | ok a =>
      obtain ⟨extent, hextent, hroom, hover⟩ := hok a after hread
      exact .read hextent hroom hover

/-- A read without a count takes all that it hands out, or nothing. -/
theorem effect_of_plain_read {α : Type} {read : BufferM α} {toAnswer : α → Access.Answer}
    {access : Access} {extent : Nat} (hperform : access.perform = do return toAnswer (← read))
    (hextent : access.extent? buffer = some extent) (hcount : access.countWidth = 0)
    (htook : ∀ a after, read buffer = (.ok a, after) →
      (toAnswer a).spelled.length = extent ∧ Took buffer after (toAnswer a).spelled)
    (hfails : FailsCleanly read extent buffer) :
    access.Effect buffer (access.perform buffer).1 (access.perform buffer).2 := by
  refine effect_of_read hperform (fun a after hread => ⟨extent, hextent, ?_⟩)
    fun error after hread => ⟨extent, hextent, ?_⟩
  · obtain ⟨hlength, htaken⟩ := htook a after hread
    rw [hcount, ← hlength]
    exact ⟨htaken.fits, htaken.wentOver_all⟩
  · obtain ⟨rfl, hlack, herror⟩ := hfails error after hread
    rw [hcount]
    exact ⟨hlack, fellShort_behind_count (Nat.zero_le _) rfl rfl herror⟩

/-- Filling a destination is reading as many bytes as it has. -/
theorem perform_readInto {size : Nat} (destination : Block size) :
    (Access.readInto destination).perform = (Access.readBytes size).perform := by
  funext buffer
  rw [Access.perform, Access.perform, return_eq, Buffer.readBytes, return_eq,
    ← Filled.toExcept_overwrite destination (readBlock size) buffer]
  change (Except.map _ (Filled.overwrite _ _ buffer).toExcept, _) = _
  cases (Filled.overwrite destination (readBlock size) buffer).toExcept with
  | error error => rfl
  | ok block => rfl

theorem extent?_readSized {count : Nat} {rest : Bytes} (hcount : count < 0x100000000)
    (h : buffer.ahead = bigEndian 4 count ++ rest) :
    Access.readSized.extent? buffer = some (4 + count) := by
  have hcounted := extract_ahead h
  rw [length_bigEndian] at hcounted
  rw [Access.extent?, hcounted, ofBigEndian_of_lt hcount]

theorem readSized_goes_over {bytes : Bytes} (h : readSized buffer = (.ok bytes, after)) :
    Access.readSized.extent? buffer = some (4 + bytes.length) ∧
      4 + bytes.length ≤ buffer.remaining ∧
      buffer.WentOver after 4 (4 + bytes.length) bytes := by
  obtain ⟨hlength, htook⟩ := took_readSized h
  have hfits := htook.fits
  have hover := htook.wentOver
  rw [List.length_append, length_bigEndian] at hfits
  rw [length_bigEndian] at hover
  exact ⟨extent?_readSized hlength (htook.1.trans (List.append_assoc ..)), hfits, hover⟩

theorem readSized_falls_short {error : Error} (h : readSized buffer = (.error error, after)) :
    ∃ extent, Access.readSized.extent? buffer = some extent ∧ buffer.remaining < extent ∧
      buffer.FellShort after 4 extent error := by
  rcases readSized_eq_error h with ⟨rfl, hlack, herror⟩ | ⟨count, hstops⟩
  · -- whatever bytes there are in place of a count, they are fewer than four
    exact ⟨_, rfl, Nat.lt_of_lt_of_le hlack (Nat.le_add_right ..),
      fellShort_of_count hlack herror _⟩
  · have htook := took_readU32 hstops.count_eq
    have hover := htook.wentOver_all
    have hleft := htook.length
    have hshort := hstops.short
    rw [length_bigEndian] at hover hleft
    refine ⟨4 + count.toNat, extent?_readSized count.toNat_lt htook.1, ?_,
      fellShort_behind_count hstops.room hover.contents_eq hover.position_eq ?_⟩
    · change after.remaining + 4 = buffer.remaining at hleft
      omega
    · rw [Nat.add_sub_cancel_left, hstops.error_eq]

theorem effect_readSized :
    Access.readSized.Effect buffer (Access.readSized.perform buffer).1
      (Access.readSized.perform buffer).2 :=
  effect_of_read rfl (fun _ _ h => ⟨_, readSized_goes_over h⟩) fun _ _ h => readSized_falls_short h

theorem effect_readRemaining :
    Access.readRemaining.Effect buffer (Access.readRemaining.perform buffer).1
      (Access.readRemaining.perform buffer).2 := by
  have htook := took_advance buffer.remaining buffer
  rw [remaining, List.take_length] at htook
  exact .read rfl (Nat.le_refl _) htook.wentOver_all

end Reads

/-! ## Writes and patches -/

section Changes

variable {buffer : Buffer}

theorem effect_write {write : BufferM Unit} {access : Access} {bytes : Bytes}
    (hperform : access.perform = do write; return .done)
    (hwritten : access.written? = some (.ok bytes)) (happends : Appends write (.ok ()) bytes) :
    access.Effect buffer (access.perform buffer).1 (access.perform buffer).2 := by
  rw [hperform, bind_of_ok (happends buffer)]
  exact .wrote hwritten (buffer.grown_append bytes)

theorem effect_writeSized (bytes : Bytes) :
    (Access.writeSized bytes).Effect buffer ((Access.writeSized bytes).perform buffer).1
      ((Access.writeSized bytes).perform buffer).2 := by
  by_cases hlength : bytes.length < 0x100000000
  · have hwritten : (Access.writeSized bytes).written? =
        some (.ok (bigEndian 4 bytes.length ++ bytes)) := if_pos hlength
    have happends : Appends (Buffer.writeSized bytes) (.ok ())
        (bigEndian 4 bytes.length ++ bytes) := by
      rw [Buffer.writeSized, if_pos hlength]
      exact appends_writeBytes _
    exact effect_write rfl hwritten happends
  · have hrefused : (Access.writeSized bytes).perform buffer =
        (.error (.overflow (.sizedBytes bytes.length)), buffer) := by
      rw [Access.perform, Buffer.writeSized, if_neg hlength]
      rfl
    rw [hrefused]
    exact .unwritten (if_neg hlength)

/-- Offsets of 64 bits reach behind every byte of a buffer whose length has 64 bits. -/
theorem hasFour_of_size {position : UInt64} (h : buffer.size < UInt64.size) :
    buffer.HasFour position ↔ position.toNat + 4 ≤ buffer.size :=
  ⟨fun hfour => hfour.1, fun hroom => ⟨hroom, Nat.lt_of_le_of_lt hroom h⟩⟩

theorem HasFour.toNat_add {position : UInt64} (h : buffer.HasFour position) :
    (position + 4).toNat = position.toNat + 4 := by
  rw [UInt64.toNat_add]
  exact Nat.mod_eq_of_lt h.2

theorem hasFour_iff {position : UInt64} :
    buffer.HasFour position ↔
      position ≤ position + 4 ∧ (position + 4).toNat ≤ buffer.contents.length := by
  have hposition := position.toNat_lt
  have hstop : (position + 4).toNat = (position.toNat + 4) % 2 ^ 64 := UInt64.toNat_add ..
  have hsize : UInt64.size = 2 ^ 64 := rfl
  rw [HasFour, UInt64.le_iff_toNat_le, hstop, hsize, size]
  -- an end that wraps around is less than four, and so it lies before its start
  omega

theorem position_withContents {contents : Bytes} (h : contents.length = buffer.contents.length) :
    (buffer.withContents contents).position = buffer.position := by
  have hinside : buffer.position ≤ contents.length := by
    rw [h, Buffer.contents, List.length_append]
    exact Nat.le_add_right ..
  exact List.length_take_of_le hinside

/-- The contents with other four bytes at `position`. -/
def exchanged (buffer : Buffer) (position : UInt64) (value : UInt32) : Bytes :=
  buffer.contents.take position.toNat ++ bigEndian 4 value.toNat ++
    buffer.contents.drop (position + 4).toNat

section Exchange

variable {position : UInt64} (h : buffer.HasFour position) (value : UInt32)

include h

theorem length_front : (buffer.contents.take position.toNat).length = position.toNat :=
  List.length_take_of_le (Nat.le_trans (Nat.le_add_right ..) h.1)

theorem length_exchanged : (buffer.exchanged position value).length = buffer.contents.length := by
  have hroom : position.toNat + 4 ≤ buffer.contents.length := h.1
  rw [exchanged, List.length_append, List.length_append, length_front h, length_bigEndian,
    List.length_drop, h.toNat_add]
  omega

theorem patched_exchanged :
    buffer.Patched (buffer.withContents (buffer.exchanged position value))
      position.toNat value where
  size_eq := by
    rw [size, contents_withContents, length_exchanged h, size]
  position_eq := position_withContents (length_exchanged h value)
  inside := by
    have hmiddle := extract_append_append (buffer.contents.take position.toNat)
      (bigEndian 4 value.toNat) (buffer.contents.drop (position + 4).toNat)
    rw [length_front h, length_bigEndian] at hmiddle
    rwa [contents_withContents, exchanged, List.append_assoc]
  outside := by
    intro i hi
    have hfront := length_front h
    have hfour := length_bigEndian 4 value.toNat
    rw [contents_withContents, exchanged, h.toNat_add]
    grind

theorem patchU32_of_hasFour : patchU32 position value buffer =
    (.ok (), buffer.withContents (buffer.exchanged position value)) :=
  if_pos (hasFour_iff.mp h)

end Exchange

theorem patchU32_of_not_hasFour {position : UInt64} (h : ¬ buffer.HasFour position)
    (value : UInt32) :
    patchU32 position value buffer = (.error (.overflow (.patch position.toNat)), buffer) :=
  if_neg fun hroom => h (hasFour_iff.mpr hroom)

theorem patchU32_eq_ok_iff {position : UInt64} (value : UInt32) :
    (patchU32 position value buffer).1 = .ok () ↔ buffer.HasFour position := by
  by_cases h : buffer.HasFour position
  · rw [patchU32_of_hasFour h]
    exact ⟨fun _ => h, fun _ => rfl⟩
  · rw [patchU32_of_not_hasFour h]
    exact ⟨nofun, fun hfour => absurd hfour h⟩

theorem effect_patchU32 (position : UInt64) (value : UInt32) :
    (Access.patchU32 position value).Effect buffer
      ((Access.patchU32 position value).perform buffer).1
      ((Access.patchU32 position value).perform buffer).2 := by
  by_cases h : buffer.HasFour position
  · rw [Access.perform, bind_of_ok (patchU32_of_hasFour h value)]
    exact .patched h (patched_exchanged h value)
  · rw [Access.perform, bind_of_error (patchU32_of_not_hasFour h value)]
    exact .unpatched h

end Changes

/-- Every access has the effect of its kind. -/
theorem Access.effect_perform (access : Access) (buffer : Buffer) :
    access.Effect buffer (access.perform buffer).1 (access.perform buffer).2 := by
  cases access with
  | writeU8 value => exact effect_write rfl rfl (appends_writeBytes _)
  | writeU16 value => exact effect_write rfl rfl (appends_writeBytes _)
  | writeU32 value => exact effect_write rfl rfl (appends_writeBytes _)
  | writeBytes bytes => exact effect_write rfl rfl (appends_writeBytes _)
  | writeSized bytes => exact effect_writeSized bytes
  | patchU32 position value => exact effect_patchU32 position value
  | readU8 =>
    exact effect_of_plain_read rfl rfl rfl (fun _ _ h => ⟨rfl, took_readU8 h⟩) failsCleanly_readU8
  | readU16 =>
    exact effect_of_plain_read rfl rfl rfl
      (fun _ _ h => ⟨length_bigEndian .., took_readU16 h⟩) failsCleanly_readU16
  | readU32 =>
    exact effect_of_plain_read rfl rfl rfl
      (fun _ _ h => ⟨length_bigEndian .., took_readU32 h⟩) failsCleanly_readU32
  | readBytes count =>
    exact effect_of_plain_read rfl rfl rfl (fun _ _ h => took_readBytes h)
      (failsCleanly_readBytes count)
  | readInto destination =>
    exact effect_of_plain_read (perform_readInto destination) rfl rfl
      (fun _ _ h => took_readBytes h) (failsCleanly_readBytes _)
  | readSized => exact effect_readSized
  | readRemaining => exact effect_readRemaining
  | reset => exact .rewound rfl rfl

end Buffer

end TrustedModule
