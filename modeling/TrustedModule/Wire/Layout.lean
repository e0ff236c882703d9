import TrustedModule.Wire.Buffer

/-!
# Layouts of structures

A layout describes a structure once: its name and, in order, the label and the form of each part.
From this description follow the type of its values, the writer, the reader that fills a value in
place, the static size and the readable form. Because the reader fills in place, a value whose
reading stops early keeps the parts that were read and its old parts after them.
-/

set_option autoImplicit false

namespace TrustedModule

/-- The form of a value on the wire. -/
inductive Layout where
  | u8
  | u16
  | u32
  /-- One byte; every byte but 0 is a set flag. -/
  | flag
  /-- A fixed count of bytes, verbatim. -/
  | block (size : Nat)
  /-- A count in 16 bits and that many bytes of a PCR mask. -/
  | mask
  /-- A count in 32 bits and that many bytes. -/
  | sized
  /-- A named structure, whose parts are a chain of `field`s ending in `done`. -/
  | record (name : String) (fields : Layout)
  /-- One labelled part and the parts after it; a part that is not shown is left out of texts. -/
  | field (label : String) (shown : Bool) (head rest : Layout)
  | done
  deriving DecidableEq, Repr

namespace Layout

/-- The values that have a form. -/
abbrev Value : Layout → Type
  | u8 => UInt8
  | u16 => UInt16
  | u32 => UInt32
  | flag => Bool
  | block size => Block size
  | mask | sized => Bytes
  | record _ fields => fields.Value
  | field _ _ head rest => head.Value × rest.Value
  | done => Unit

def decEqValue : (layout : Layout) → DecidableEq layout.Value
  | u8 => inferInstanceAs (DecidableEq UInt8)
  | u16 => inferInstanceAs (DecidableEq UInt16)
  | u32 => inferInstanceAs (DecidableEq UInt32)
  | flag => inferInstanceAs (DecidableEq Bool)
  | block size => inferInstanceAs (DecidableEq (Block size))
  | mask => inferInstanceAs (DecidableEq Bytes)
  | sized => inferInstanceAs (DecidableEq Bytes)
  | record _ fields => fields.decEqValue
  | field _ _ head rest => @instDecidableEqProd _ _ head.decEqValue rest.decEqValue
  | done => inferInstanceAs (DecidableEq Unit)

instance (layout : Layout) : DecidableEq layout.Value := layout.decEqValue

/-- The size that every value of the form has, if it does not depend on the value. -/
def fixedSize : Layout → Option Nat
  | u8 | flag => some 1
  | u16 => some 2
  | u32 => some 4
  | block size => some size
  | mask | sized => none
  | record _ fields => fields.fixedSize
  | field _ _ head rest => do return (← head.fixedSize) + (← rest.fixedSize)
  | done => some 0

/-- Appends a value part by part; parts before one that does not fit stay in the buffer. -/
def write : (layout : Layout) → layout.Value → BufferM Unit
  | u8, value => Buffer.writeU8 value
  | u16, value => Buffer.writeU16 value
  | u32, value => Buffer.writeU32 value
  | flag, value => Buffer.writeFlag value
  | block _, value => Buffer.writeBytes value.bytes
  | mask, value => Buffer.writeMask value
  | sized, value => Buffer.writeSized value
  | record _ fields, value => fields.write value
  | field _ _ head rest, (first, others) => do
    head.write first
    rest.write others
  | done, () => pure ()

/-- The bytes of a value. -/
def encode (layout : Layout) (value : layout.Value) : Except Error Bytes :=
  let (result, buffer) := layout.write value Buffer.empty
  result.map fun () => buffer.contents

/-- The length of the bytes of a value; they are written out only if their size is not static. -/
def wireSize (layout : Layout) (value : layout.Value) : Except Error Nat :=
  match layout.fixedSize with
  | some size => .ok size
  | none => (layout.encode value).map List.length

end Layout

/-- What reading into a target leaves behind. -/
structure Filled (α : Type) where
  target : α
  /-- Whether all of the target was read. -/
  result : Except Error Unit
  buffer : Buffer

namespace Filled

def map {α β : Type} (f : α → β) (filled : Filled α) : Filled β :=
  ⟨f filled.target, filled.result, filled.buffer⟩

/-- Replaces the target by what is read, and keeps it if the read fails. -/
def overwrite {α : Type} (target : α) (read : BufferM α) (buffer : Buffer) : Filled α :=
  match read buffer with
  | (.ok value, after) => ⟨value, .ok (), after⟩
  | (.error error, after) => ⟨target, .error error, after⟩

/-- Goes on to the next target where the first was read, and leaves it alone otherwise. -/
def andThen {α β : Type} (first : Filled α) (next : β) (fill : β → Buffer → Filled β) :
    Filled (α × β) :=
  match first.result with
  | .error _ => first.map (·, next)
  | .ok () => (fill next first.buffer).map (first.target, ·)

/-- The target, if all of it was read. -/
def toExcept {α : Type} (filled : Filled α) : Except Error α :=
  filled.result.map fun () => filled.target

end Filled

namespace Layout

/-- Reads into a value part by part, up to the first part whose bytes are missing. -/
def fill : (layout : Layout) → layout.Value → Buffer → Filled layout.Value
  | u8, target => .overwrite target Buffer.readU8
  | u16, target => .overwrite target Buffer.readU16
  | u32, target => .overwrite target Buffer.readU32
  | flag, target => .overwrite target Buffer.readFlag
  | block size, target => .overwrite target (Buffer.readBlock size)
  | mask, target => .overwrite target Buffer.readMask
  | sized, target => .overwrite target Buffer.readSized
  | record _ fields, target => fields.fill target
  | field _ _ head rest, (first, others) => fun buffer =>
    (head.fill first buffer).andThen others rest.fill
  | done, () => fun buffer => ⟨(), .ok (), buffer⟩

/-- Reads a value off the front of a byte string; `initial` is the value to start from. -/
def decode (layout : Layout) (initial : layout.Value) (bytes : Bytes) :
    Except Error layout.Value :=
  (layout.fill initial (Buffer.ofBytes bytes)).toExcept

/-- The readable parts of a value; only a chain of fields has any number of them but one. -/
def parts : (layout : Layout) → layout.Value → List String
  | u8, value => [toString value]
  | u16, value => [toString value]
  | u32, value => [toString value]
  | flag, value => [toString value]
  | block _, value => [Text.bytes value.bytes]
  | mask, value => [Text.bytes value]
  | sized, value => [Text.bytes value]
  | record name fields, value => [Text.record name (fields.parts value)]
  | field label shown head rest, (first, others) =>
    let more := rest.parts others
    if shown then Text.part label (", ".intercalate (head.parts first)) :: more else more
  | done, () => []

def text (layout : Layout) (value : layout.Value) : String :=
  ", ".intercalate (layout.parts value)

end Layout

/-- A type whose values travel as a structure. -/
class Wire (α : Type) where
  layout : Layout
  toValue : α → layout.Value
  ofValue : layout.Value → α
  ofValue_toValue : ∀ a, ofValue (toValue a) = a := by intros; rfl
  toValue_ofValue : ∀ value, toValue (ofValue value) = value := by intros; rfl

namespace Wire

variable {α : Type} [Wire α]

def write (a : α) : BufferM Unit := (layout α).write (toValue a)

def encode (a : α) : Except Error Bytes := (layout α).encode (toValue a)

def wireSize (a : α) : Except Error Nat := (layout α).wireSize (toValue a)

def text (a : α) : String := (layout α).text (toValue a)

/-- Reads into `target`, which keeps the parts after the first that is missing. -/
def fill (target : α) (buffer : Buffer) : Filled α :=
  ((layout α).fill (toValue target) buffer).map ofValue

/-- Reads a structure off the front of a byte string, and ignores what follows it. -/
def decode (α : Type) [Wire α] [Inhabited α] (bytes : Bytes) : Except Error α :=
  ((layout α).decode (toValue default) bytes).map ofValue

end Wire

end TrustedModule
