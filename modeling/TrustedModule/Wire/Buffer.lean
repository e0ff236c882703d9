import TrustedModule.Bytes
import TrustedModule.Error
import TrustedModule.Text.Listing

/-!
# Buffer with a read cursor

A buffer is the bytes before its cursor and the bytes ahead of it, so the cursor can never leave
the contents. Writes append at the far end and do not move the cursor; reads take from the bytes
ahead and move over them, or fail and leave the buffer alone. A sized read is two reads, of the
count and of that many bytes, so one that fails on the second keeps the count consumed.
-/

set_option autoImplicit false

namespace TrustedModule

structure Buffer where
  passed : Bytes
  ahead : Bytes
  deriving DecidableEq, Repr

/-- A read or a write of a buffer: its result, an error included, and the buffer afterwards. -/
abbrev BufferM (α : Type) := ExceptT Error (StateM Buffer) α

namespace Buffer

def empty : Buffer := ⟨[], []⟩

/-- All of `bytes` lie ahead of the cursor. -/
def ofBytes (bytes : Bytes) : Buffer := ⟨[], bytes⟩

def contents (buffer : Buffer) : Bytes := buffer.passed ++ buffer.ahead

def position (buffer : Buffer) : Nat := buffer.passed.length

def remaining (buffer : Buffer) : Nat := buffer.ahead.length

def size (buffer : Buffer) : Nat := buffer.contents.length

def isEmpty (buffer : Buffer) : Bool := buffer.contents.isEmpty

/-- The cursor goes over the next `count` bytes. -/
def advance (count : Nat) (buffer : Buffer) : Buffer :=
  ⟨buffer.passed ++ buffer.ahead.take count, buffer.ahead.drop count⟩

/-- The cursor goes back to the start. -/
def reset (buffer : Buffer) : Buffer := ⟨[], buffer.contents⟩

def append (bytes : Bytes) (buffer : Buffer) : Buffer :=
  { buffer with ahead := buffer.ahead ++ bytes }

/-- Other contents of the same length under the same cursor. -/
def withContents (contents : Bytes) (buffer : Buffer) : Buffer :=
  ⟨contents.take buffer.position, contents.drop buffer.position⟩

def text (buffer : Buffer) : String :=
  Text.record "TpmBuffer"
    [Text.part "buffer" (Text.bytes buffer.contents),
      Text.part "position" (toString buffer.position)]

/-! ## Writes -/

def writeBytes (bytes : Bytes) : BufferM Unit :=
  fun buffer => (.ok (), buffer.append bytes)

def writeU8 (value : UInt8) : BufferM Unit := writeBytes [value]

def writeU16 (value : UInt16) : BufferM Unit := writeBytes (bigEndian 2 value.toNat)

def writeU32 (value : UInt32) : BufferM Unit := writeBytes (bigEndian 4 value.toNat)

/-- A flag is the byte 1 or 0. -/
def writeFlag (value : Bool) : BufferM Unit := writeU8 (if value then 1 else 0)

/-- The count of the bytes in 32 bits, then the bytes. -/
def writeSized (bytes : Bytes) : BufferM Unit :=
  if bytes.length < 0x100000000 then
    writeBytes (bigEndian 4 bytes.length ++ bytes)
  else
    throw (.overflow (.sizedBytes bytes.length))

/-- The count of the mask bytes in 16 bits, then the mask. -/
def writeMask (mask : Bytes) : BufferM Unit :=
  if mask.length < 0x10000 then
    writeBytes (bigEndian 2 mask.length ++ mask)
  else
    throw (.overflow (.pcrMask mask.length))

/-- Overwrites four bytes that are already there. Offsets have 64 bits, so the end of the four bytes
can wrap around to a small number; then it lies before their start and they are not there. -/
def patchU32 (position : UInt64) (value : UInt32) : BufferM Unit := fun buffer =>
  let contents := buffer.contents
  let stop := position + 4
  if position ≤ stop ∧ stop.toNat ≤ contents.length then
    (.ok (), buffer.withContents
      (contents.take position.toNat ++ bigEndian 4 value.toNat ++ contents.drop stop.toNat))
  else
    (.error (.overflow (.patch position.toNat)), buffer)

/-! ## Reads -/

/-- The next `count` bytes, if there are that many. -/
def readBlock (count : Nat) : BufferM (Block count) := fun buffer =>
  if h : count ≤ buffer.ahead.length then
    (.ok ⟨buffer.ahead.take count, by simp [h]⟩, buffer.advance count)
  else
    (.error (.underflow count buffer.remaining), buffer)

def readBytes (count : Nat) : BufferM Bytes := return (← readBlock count).bytes

def readU8 : BufferM UInt8 := return UInt8.ofNat (ofBigEndian (← readBytes 1))

def readU16 : BufferM UInt16 := return UInt16.ofNat (ofBigEndian (← readBytes 2))

def readU32 : BufferM UInt32 := return UInt32.ofNat (ofBigEndian (← readBytes 4))

/-- Every byte but 0 is a set flag. -/
def readFlag : BufferM Bool := return (← readU8) != 0

/-- A count in 32 bits and that many bytes. -/
def readSized : BufferM Bytes := do readBytes (← readU32).toNat

/-- A count in 16 bits and that many mask bytes. -/
def readMask : BufferM Bytes := do readBytes (← readU16).toNat

/-- Everything ahead of the cursor. -/
def readRemaining : BufferM Bytes := fun buffer =>
  (.ok buffer.ahead, buffer.advance buffer.ahead.length)

/-! ## Laws -/

@[simp] theorem contents_append (bytes : Bytes) (buffer : Buffer) :
    (buffer.append bytes).contents = buffer.contents ++ bytes := by
  simp [append, contents]

@[simp] theorem position_append (bytes : Bytes) (buffer : Buffer) :
    (buffer.append bytes).position = buffer.position := rfl

@[simp] theorem contents_advance (count : Nat) (buffer : Buffer) :
    (buffer.advance count).contents = buffer.contents := by
  simp [advance, contents]

@[simp] theorem contents_withContents (contents : Bytes) (buffer : Buffer) :
    (buffer.withContents contents).contents = contents := by
  simp [withContents, Buffer.contents]

theorem readBlock_of_le {count : Nat} {buffer : Buffer} (h : count ≤ buffer.ahead.length) :
    readBlock count buffer =
      (.ok ⟨buffer.ahead.take count, List.length_take_of_le h⟩, buffer.advance count) :=
  dif_pos h

theorem readBlock_of_lt {count : Nat} {buffer : Buffer} (h : buffer.remaining < count) :
    readBlock count buffer = (.error (.underflow count buffer.remaining), buffer) :=
  dif_neg (Nat.not_le.mpr h)

theorem position_add_remaining (buffer : Buffer) :
    buffer.position + buffer.remaining = buffer.size := by
  simp [position, remaining, size, contents]

end Buffer

end TrustedModule
