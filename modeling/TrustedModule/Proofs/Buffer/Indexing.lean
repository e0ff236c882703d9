import TrustedModule.Proofs.Buffer.Access

/-!
# Buffers by offset

A buffer that is kept in two halves has no offset that could leave it. Here it is one byte string
and an offset, which nothing keeps inside, and every access says which bytes it reaches for: slices
from one offset to another, single bytes by their index, copies into a slot. Where these are not
there, the access has no outcome. From a new buffer this never comes about, whatever the accesses
and their arguments: both forms of a buffer run in step.
-/

set_option autoImplicit false

namespace TrustedModule

/-- One byte string and an offset into it. -/
structure IndexedBuffer where
  contents : Bytes
  position : Nat
  deriving DecidableEq, Repr

/-- An action on an indexed buffer; `none` where it reaches for bytes that are not there. -/
abbrev IndexedM (α : Type) := ExceptT Error (StateT IndexedBuffer Option) α

/-- The same bytes under the same cursor. -/
def Buffer.indexed (buffer : Buffer) : IndexedBuffer := ⟨buffer.contents, buffer.position⟩

namespace IndexedBuffer

open Buffer (Access)

/-- What a slot holds after a copy; only as many bytes as it has can be copied into it. -/
def copy? (slot source : Bytes) : Option Bytes :=
  if source.length = slot.length then some source else none

/-- How many bytes are behind the offset; none if it has left the bytes. -/
def remaining (buffer : IndexedBuffer) : Nat := buffer.contents.length - buffer.position

/-! ## Accesses -/

def append (bytes : Bytes) : IndexedM Unit := fun buffer =>
  some (.ok (), { buffer with contents := buffer.contents ++ bytes })

def writeSized (bytes : Bytes) : IndexedM Unit :=
  if bytes.length < 0x100000000 then do
    append (bigEndian 4 bytes.length)
    append bytes
  else
    throw (.overflow (.sizedBytes bytes.length))

/-- The end of the slot is computed in 64 bits. A slot that is not there is refused before anything
reaches for it. -/
def patchU32 (position : UInt64) (value : UInt32) : IndexedM Unit := fun buffer =>
  let stop := position + 4
  match slice? position.toNat stop.toNat buffer.contents with
  | none => some (.error (.overflow (.patch position.toNat)), buffer)
  | some slot => do
    let patched ← copy? slot (bigEndian 4 value.toNat)
    return (.ok (), { buffer with
      contents := buffer.contents.take position.toNat ++ patched ++
        buffer.contents.drop stop.toNat })

def take (count : Nat) : IndexedM Bytes := fun buffer =>
  if buffer.remaining < count then
    some (.error (.underflow count buffer.remaining), buffer)
  else do
    let bytes ← slice? buffer.position (buffer.position + count) buffer.contents
    return (.ok bytes, { buffer with position := buffer.position + count })

def readNumber {α : Type} (width : Nat) (ofNat : Nat → α) : IndexedM α := do
  let bytes ← take width
  return ofNat (ofBigEndian (← entries? width bytes))

def readU8 : IndexedM UInt8 := readNumber 1 UInt8.ofNat

def readU16 : IndexedM UInt16 := readNumber 2 UInt16.ofNat

def readU32 : IndexedM UInt32 := readNumber 4 UInt32.ofNat

def readInto {size : Nat} (destination : Block size) : IndexedM Bytes := do
  let bytes ← take size
  copy? destination.bytes bytes

def readSized : IndexedM Bytes := do take (← readU32).toNat

def readRemaining : IndexedM Bytes := fun buffer => do
  let size := buffer.contents.length
  let bytes ← slice? (min buffer.position size) size buffer.contents
  return (.ok bytes, { buffer with position := size })

def perform : Access → IndexedM Access.Answer
  | .writeU8 value => do append [value]; return .done
  | .writeU16 value => do append (bigEndian 2 value.toNat); return .done
  | .writeU32 value => do append (bigEndian 4 value.toNat); return .done
  | .writeBytes bytes => do append bytes; return .done
  | .writeSized bytes => do writeSized bytes; return .done
  | .patchU32 position value => do patchU32 position value; return .done
  | .readU8 => return .u8 (← readU8)
  | .readU16 => return .u16 (← readU16)
  | .readU32 => return .u32 (← readU32)
  | .readBytes count => return .bytes (← take count)
  | .readInto destination => return .bytes (← readInto destination)
  | .readSized => return .bytes (← readSized)
  | .readRemaining => return .bytes (← readRemaining)
  | .reset => fun buffer => some (.ok .done, { buffer with position := 0 })

/-- The accesses one after the other, as long as all of them have an outcome. -/
def performAll : List Access → IndexedBuffer →
    Option (List (Except Error Access.Answer) × IndexedBuffer)
  | [], buffer => some ([], buffer)
  | access :: rest, buffer => do
    let (answer, next) ← perform access buffer
    let (answers, last) ← performAll rest next
    return (answer :: answers, last)

theorem copy?_of_length {slot source : Bytes} (h : source.length = slot.length) :
    copy? slot source = some source :=
  if_pos h

/-! ## Both forms in step -/

/-- On the indexed form of `buffer` the action has an outcome, which is that of its counterpart. -/
def SimulatesAt {α : Type} (indexed : IndexedM α) (action : BufferM α) (buffer : Buffer) : Prop :=
  indexed buffer.indexed = some ((action buffer).1, (action buffer).2.indexed)

def Simulates {α : Type} (indexed : IndexedM α) (action : BufferM α) : Prop :=
  ∀ buffer, SimulatesAt indexed action buffer

section Actions

variable {α β : Type} {buffer : Buffer}

theorem simulates_pure (a : α) : Simulates (pure a) (pure a) :=
  fun _ => rfl

theorem simulates_throw (error : Error) : Simulates (throw error : IndexedM α) (throw error) :=
  fun _ => rfl

theorem simulatesAt_lift {value : Option α} {a : α} (h : value = some a) :
    SimulatesAt (liftM value) (pure a) buffer := by
  subst h
  rfl

theorem SimulatesAt.bind {first : IndexedM α} {first' : BufferM α} {next : α → IndexedM β}
    {next' : α → BufferM β} (hfirst : SimulatesAt first first' buffer)
    (hnext : ∀ a after, first' buffer = (.ok a, after) → SimulatesAt (next a) (next' a) after) :
    SimulatesAt (first >>= next) (first' >>= next') buffer := by
  unfold SimulatesAt at *
  cases hread : first' buffer with
  | mk result after =>
    rw [hread] at hfirst
    cases result with
    | error error =>
      rw [Buffer.bind_of_error hread]
      simp only [Bind.bind, ExceptT.bind, ExceptT.mk, StateT.bind, hfirst]
      rfl
    | ok a =>
      rw [Buffer.bind_of_ok hread]
      simp only [Bind.bind, ExceptT.bind, ExceptT.mk, StateT.bind, hfirst]
      exact hnext a after hread

theorem Simulates.bind {first : IndexedM α} {first' : BufferM α} {next : α → IndexedM β}
    {next' : α → BufferM β} (hfirst : Simulates first first')
    (hnext : ∀ a, Simulates (next a) (next' a)) : Simulates (first >>= next) (first' >>= next') :=
  fun buffer => (hfirst buffer).bind fun a after _ => hnext a after

theorem Simulates.map {read : IndexedM α} {read' : BufferM α} (h : Simulates read read')
    (f : α → β) : Simulates (do return f (← read)) (do return f (← read')) :=
  h.bind fun a => simulates_pure (f a)

end Actions

section Accesses

variable {buffer : Buffer}

theorem remaining_indexed (buffer : Buffer) : buffer.indexed.remaining = buffer.remaining :=
  buffer.remaining_eq.symm

theorem simulates_append (bytes : Bytes) : Simulates (append bytes) (Buffer.writeBytes bytes) := by
  intro buffer
  change _ = some (Except.ok (), (buffer.append bytes).indexed)
  rw [Buffer.indexed, Buffer.indexed, Buffer.contents_append, Buffer.position_append]
  rfl

theorem simulates_writeSized (bytes : Bytes) :
    Simulates (writeSized bytes) (Buffer.writeSized bytes) := by
  have hsplit : Buffer.writeBytes (bigEndian 4 bytes.length ++ bytes) =
      (do Buffer.writeBytes (bigEndian 4 bytes.length); Buffer.writeBytes bytes) := by
    funext buffer
    change (Except.ok (), buffer.append (bigEndian 4 bytes.length ++ bytes)) =
      (Except.ok (), (buffer.append (bigEndian 4 bytes.length)).append bytes)
    rw [Buffer.append_append]
  unfold writeSized Buffer.writeSized
  split
  · rw [hsplit]
    exact (simulates_append _).bind fun _ => simulates_append bytes
  · exact simulates_throw _

theorem slice?_of_hasFour {position : UInt64} (h : buffer.HasFour position) :
    ∃ slot, slice? position.toNat (position + 4).toNat buffer.contents = some slot ∧
      slot.length = 4 := by
  obtain ⟨hstart, hstop⟩ := Buffer.hasFour_iff.mp h
  refine ⟨_, slice?_of_le (UInt64.le_iff_toNat_le.mp hstart) hstop, ?_⟩
  have hfour : (position + 4).toNat = position.toNat + 4 := Buffer.HasFour.toNat_add h
  rw [List.extract_eq_take_drop, List.length_take_of_le]
  · omega
  · rw [List.length_drop]
    omega

theorem slice?_of_not_hasFour {position : UInt64} (h : ¬ buffer.HasFour position) :
    slice? position.toNat (position + 4).toNat buffer.contents = none :=
  if_neg fun hroom => h (Buffer.hasFour_iff.mpr ⟨UInt64.le_iff_toNat_le.mpr hroom.1, hroom.2⟩)

theorem simulates_patchU32 (position : UInt64) (value : UInt32) :
    Simulates (patchU32 position value) (Buffer.patchU32 position value) := by
  intro buffer
  unfold SimulatesAt patchU32
  by_cases h : buffer.HasFour position
  · obtain ⟨slot, hslot, hlength⟩ := slice?_of_hasFour h
    have hcopy : copy? slot (bigEndian 4 value.toNat) = some (bigEndian 4 value.toNat) :=
      copy?_of_length ((length_bigEndian ..).trans hlength.symm)
    rw [Buffer.patchU32_of_hasFour h]
    simp only [Buffer.indexed, hslot, hcopy, Buffer.contents_withContents,
      Buffer.position_withContents (Buffer.length_exchanged h value)]
    rfl
  · rw [Buffer.patchU32_of_not_hasFour h]
    simp only [Buffer.indexed, slice?_of_not_hasFour h]

theorem slice?_ahead {count : Nat} (h : count ≤ buffer.remaining) :
    slice? buffer.position (buffer.position + count) buffer.contents =
      some (buffer.ahead.take count) := by
  have htaken := Buffer.extract_ahead (List.take_append_drop count buffer.ahead).symm
  have hstop : buffer.position + count ≤ buffer.contents.length :=
    Nat.le_trans (Nat.add_le_add_left h _) (Nat.le_of_eq buffer.position_add_remaining)
  rw [List.length_take_of_le h] at htaken
  rw [slice?_of_le (Nat.le_add_right ..) hstop, htaken]

theorem indexed_advance {count : Nat} (h : count ≤ buffer.remaining) :
    (buffer.advance count).indexed = ⟨buffer.contents, buffer.position + count⟩ := by
  have hover := (Buffer.took_advance count buffer).wentOver_all
  rw [List.length_take_of_le h] at hover
  rw [Buffer.indexed, hover.contents_eq, hover.position_eq]

theorem simulates_take (count : Nat) : Simulates (take count) (Buffer.readBytes count) := by
  intro buffer
  unfold SimulatesAt take
  rw [remaining_indexed, Buffer.readBytes, Buffer.return_eq]
  by_cases h : buffer.remaining < count
  · rw [if_pos h, Buffer.readBlock_of_lt h]
    rfl
  · have hroom : count ≤ buffer.remaining := Nat.le_of_not_lt h
    rw [if_neg h, Buffer.readBlock_of_le hroom]
    simp only [Buffer.indexed, slice?_ahead hroom]
    rw [← Buffer.indexed, indexed_advance hroom]
    rfl

theorem simulates_readNumber {α : Type} (width : Nat) (ofNat : Nat → α) :
    Simulates (readNumber width ofNat)
      (do return ofNat (ofBigEndian (← Buffer.readBytes width))) := by
  intro buffer
  apply (simulates_take width buffer).bind
  intro bytes after hread
  have hlength := (Buffer.took_readBytes hread).1
  have hentries := entries?_eq (Nat.le_of_eq hlength.symm)
  rw [← hlength, List.take_length] at hentries
  rw [← hlength]
  unfold SimulatesAt
  rw [hentries]
  rfl

theorem simulates_readU32 : Simulates readU32 Buffer.readU32 :=
  simulates_readNumber 4 UInt32.ofNat

theorem simulates_readInto {size : Nat} (destination : Block size) :
    Simulates (readInto destination) (Buffer.readBytes size) := by
  intro buffer
  rw [← bind_pure (Buffer.readBytes size)]
  apply (simulates_take size buffer).bind
  intro bytes after hread
  have hlength := (Buffer.took_readBytes hread).1
  exact simulatesAt_lift (copy?_of_length (hlength.trans destination.length_bytes.symm))

theorem simulates_readSized : Simulates readSized Buffer.readSized :=
  simulates_readU32.bind fun count => simulates_take count.toNat

theorem simulates_readRemaining : Simulates readRemaining Buffer.readRemaining := by
  intro buffer
  have hroom := Nat.le_refl buffer.remaining
  have hslice : slice? (min buffer.position buffer.size) buffer.size buffer.contents =
      some buffer.ahead := by
    rw [Nat.min_eq_left buffer.position_le_size, ← buffer.position_add_remaining,
      slice?_ahead hroom, Buffer.remaining, List.take_length]
  have hall : (buffer.advance buffer.remaining).indexed = ⟨buffer.contents, buffer.size⟩ := by
    rw [indexed_advance hroom, buffer.position_add_remaining]
  change (slice? (min buffer.position buffer.size) buffer.size buffer.contents).bind _ =
    some (Except.ok buffer.ahead, (buffer.advance buffer.remaining).indexed)
  rw [hslice, hall]
  rfl

theorem simulates_perform (access : Access) : Simulates (perform access) access.perform := by
  cases access with
  | writeU8 value => exact (simulates_append _).map _
  | writeU16 value => exact (simulates_append _).map _
  | writeU32 value => exact (simulates_append _).map _
  | writeBytes bytes => exact (simulates_append _).map _
  | writeSized bytes => exact (simulates_writeSized _).map _
  | patchU32 position value => exact (simulates_patchU32 position value).map _
  | readU8 => exact Simulates.map (simulates_readNumber 1 UInt8.ofNat) _
  | readU16 => exact (simulates_readNumber 2 UInt16.ofNat).map _
  | readU32 => exact simulates_readU32.map _
  | readBytes count => exact (simulates_take count).map _
  | readInto destination =>
    rw [Buffer.perform_readInto]
    exact (simulates_readInto destination).map _
  | readSized => exact simulates_readSized.map _
  | readRemaining => exact simulates_readRemaining.map _
  | reset => exact fun _ => rfl

end Accesses

/-- A run on the indexed form never reaches for bytes that are not there. What carries the induction
is that every access ends in the indexed form of a buffer again. -/
theorem performAll_indexed (accesses : List Access) (buffer : Buffer) :
    performAll accesses buffer.indexed =
      some ((Access.performAll accesses buffer).1,
        (Access.performAll accesses buffer).2.indexed) := by
  induction accesses generalizing buffer with
  | nil => rfl
  | cons access rest ih =>
    have hstep : perform access buffer.indexed =
        some ((access.perform buffer).1, (access.perform buffer).2.indexed) :=
      simulates_perform access buffer
    rw [performAll, hstep]
    simp only [Option.bind_eq_bind, Option.bind_some, ih]
    rfl

/-- Behind the last byte even a read of no bytes would have no outcome. -/
example : perform (.readBytes 0) ⟨[7], 2⟩ = none := rfl

end IndexedBuffer

namespace Buffer

/-- A buffer as it is made, with the cursor at its start. -/
inductive Made : Buffer → Prop where
  | empty : Made empty
  | ofBytes (bytes : Bytes) : Made (ofBytes bytes)

theorem Made.indexed_eq {start : Buffer} (h : Made start) :
    start.indexed = ⟨start.contents, 0⟩ := by
  cases h with
  | empty => rfl
  | ofBytes bytes => rfl

/-- Whatever is done to a buffer from its making on, and with whatever arguments: the same accesses
to the same bytes under an offset have the same answers and never reach for bytes that are not
there, so the cursor stays inside and what remains is counted from it. Every further access has the
effect of its kind, and four bytes are exchanged exactly where there are four, for all lengths that
64 bits can hold. -/
theorem accesses_stay_inside {start buffer : Buffer} {accesses : List Access}
    {answers : List (Except Error Access.Answer)} (hstart : Made start)
    (hrun : Access.performAll accesses start = (answers, buffer)) :
    IndexedBuffer.performAll accesses ⟨start.contents, 0⟩ =
        some (answers, ⟨buffer.contents, buffer.position⟩) ∧
      buffer.position ≤ buffer.size ∧ buffer.remaining = buffer.size - buffer.position ∧
      (∀ access : Access,
        access.Effect buffer (access.perform buffer).1 (access.perform buffer).2) ∧
      ∀ (position : UInt64) (value : UInt32), buffer.size < UInt64.size →
        ((patchU32 position value buffer).1 = .ok () ↔ position.toNat + 4 ≤ buffer.size) := by
  have hindexed := IndexedBuffer.performAll_indexed accesses start
  rw [hrun, hstart.indexed_eq] at hindexed
  refine ⟨hindexed, buffer.position_le_size, buffer.remaining_eq,
    fun access => access.effect_perform buffer, fun position value hsize => ?_⟩
  rw [← hasFour_of_size hsize]
  exact patchU32_eq_ok_iff value

/-- A sized read, a write at the far end, a patch under the cursor, one whose end wraps around to
the start, and a read that falls short; then the last two bytes can be read, and four exchanged. -/
theorem accesses_stay_inside_mixed :
    Made (ofBytes [0, 0, 0, 1, 7]) ∧
    Access.performAll [.readSized, .writeU16 0x0203, .patchU32 3 0x0A0B0C0D,
        .patchU32 0xFFFFFFFFFFFFFFFE 1, .readU32] (ofBytes [0, 0, 0, 1, 7]) =
      ([.ok (.bytes [7]), .ok .done, .ok .done, .error (.overflow (.patch 0xFFFFFFFFFFFFFFFE)),
        .error (.underflow 4 2)], ⟨[0, 0, 0, 10, 11], [12, 13]⟩) ∧
    IndexedBuffer.performAll [.readSized, .writeU16 0x0203, .patchU32 3 0x0A0B0C0D,
        .patchU32 0xFFFFFFFFFFFFFFFE 1, .readU32] ⟨[0, 0, 0, 1, 7], 0⟩ =
      some ([.ok (.bytes [7]), .ok .done, .ok .done,
        .error (.overflow (.patch 0xFFFFFFFFFFFFFFFE)), .error (.underflow 4 2)],
        ⟨[0, 0, 0, 10, 11, 12, 13], 5⟩) ∧
    Access.readU16.Effect ⟨[0, 0, 0, 10, 11], [12, 13]⟩ (.ok (.u16 0x0C0D))
      ⟨[0, 0, 0, 10, 11, 12, 13], []⟩ ∧
    (Buffer.mk [0, 0, 0, 10, 11] [12, 13]).size < UInt64.size ∧
    (patchU32 3 1 ⟨[0, 0, 0, 10, 11], [12, 13]⟩).1 = .ok () := by
  have hmade := Made.ofBytes [0, 0, 0, 1, 7]
  have hrun : Access.performAll [.readSized, .writeU16 0x0203, .patchU32 3 0x0A0B0C0D,
      .patchU32 0xFFFFFFFFFFFFFFFE 1, .readU32] (ofBytes [0, 0, 0, 1, 7]) =
    ([.ok (.bytes [7]), .ok .done, .ok .done, .error (.overflow (.patch 0xFFFFFFFFFFFFFFFE)),
      .error (.underflow 4 2)], ⟨[0, 0, 0, 10, 11], [12, 13]⟩) := rfl
  have hsize : (Buffer.mk [0, 0, 0, 10, 11] [12, 13]).size < UInt64.size := by decide
  obtain ⟨hindexed, _, _, heffect, hpatch⟩ := accesses_stay_inside hmade hrun
  exact ⟨hmade, hrun, hindexed, heffect .readU16, hsize, (hpatch 3 1 hsize).mpr (by decide)⟩

end Buffer

end TrustedModule
