import TrustedModule.Wire.Layout

/-!
# Field lists

The body of a command or a response is a list of fields; their order and their kinds alone fix the
bytes. Data of variable length is located in one of two ways: by a 32-bit count in front of it, or
as the remainder that the fields around it leave over. A list uses one way or the other, has one
remainder at most, and after a remainder only fields of static size: `layoutFault?` decides this
from the kinds alone, so a writer and a reader of the same kinds get the same verdict, and get it
before they touch the buffer.
-/

set_option autoImplicit false

namespace TrustedModule

inductive FieldKind where
  /-- A scalar, a block or a structure, exactly as its layout says. -/
  | plain (layout : Layout)
  /-- A count in 32 bits and that many bytes. -/
  | sized
  /-- A count in 32 bits and a structure of exactly that many bytes. -/
  | sizedPlain (layout : Layout)
  /-- Every byte that the other fields do not claim. -/
  | remainder
  deriving DecidableEq, Repr

/-- How the length of a field is known on the wire. -/
inductive LengthPolicy where
  | intrinsic
  | prefixed
  | remainder
  deriving DecidableEq, Repr

namespace FieldKind

/-- A structure of one type. -/
abbrev ofWire (α : Type) [Wire α] : FieldKind := .plain (Wire.layout α)

abbrev Value : FieldKind → Type
  | plain layout | sizedPlain layout => layout.Value
  | sized | remainder => Bytes

def policy : FieldKind → LengthPolicy
  | plain _ => .intrinsic
  | sized | sizedPlain _ => .prefixed
  | remainder => .remainder

def fixedSize : FieldKind → Option Nat
  | plain layout => layout.fixedSize
  | sized | sizedPlain _ | remainder => none

def write : (kind : FieldKind) → kind.Value → BufferM Unit
  | plain layout, value => layout.write value
  | sized, value => Buffer.writeSized value
  | sizedPlain layout, value =>
    match layout.wireSize value with
    | .error error => throw error
    | .ok size =>
      if size < 0x100000000 then do
        Buffer.writeBytes (bigEndian 4 size)
        layout.write value
      else
        throw (.overflow (.sizedStructure size))
  | remainder, value => Buffer.writeBytes value

/-- Reads a structure that has to use up exactly its counted bytes. -/
def fillSized (layout : Layout) (target : layout.Value) (buffer : Buffer) :
    Filled layout.Value :=
  match Buffer.readSized buffer with
  | (.error error, after) => ⟨target, .error error, after⟩
  | (.ok bytes, after) =>
    let inner := layout.fill target (Buffer.ofBytes bytes)
    let result := match inner.result with
      | .error error => .error error
      | .ok () =>
        if inner.buffer.remaining = 0 then .ok ()
        else .error (.layout (.unreadBytes inner.buffer.remaining bytes.length))
    ⟨inner.target, result, after⟩

/-- Reads all but the last `trailing` bytes. -/
def fillRemainder (trailing : Nat) (target : Bytes) (buffer : Buffer) : Filled Bytes :=
  if buffer.remaining < trailing then
    ⟨target, .error (.underflow trailing buffer.remaining), buffer⟩
  else
    .overwrite target (Buffer.readBytes (buffer.remaining - trailing)) buffer

/-- Reads into a field that has `trailing` bytes of fixed-size fields after it. -/
def fill (trailing : Nat) : (kind : FieldKind) → kind.Value → Buffer → Filled kind.Value
  | plain layout, target => layout.fill target
  | sized, target => .overwrite target Buffer.readSized
  | sizedPlain layout, target => fillSized layout target
  | remainder, target => fillRemainder trailing target

/-- The fixed sizes in a list of kinds, added up. -/
def trailingSize : List FieldKind → Nat
  | [] => 0
  | kind :: kinds => kind.fixedSize.getD 0 + trailingSize kinds

/-- Why a list of kinds cannot be written or read, if it cannot. -/
def layoutFault? (kinds : List FieldKind) : Option LayoutFault :=
  let remainders := kinds.countP (·.policy == .remainder)
  let afterRemainder := (kinds.dropWhile (·.policy != .remainder)).tail
  if kinds.any (·.policy == .prefixed) && remainders > 0 then
    some .prefixedBesideRemainder
  else if remainders > 1 then
    some .secondRemainder
  else if afterRemainder.any (·.fixedSize.isNone) then
    some .variableAfterRemainder
  else
    none

/-- One value for each kind of a list. -/
abbrev Values : List FieldKind → Type
  | [] => Unit
  | kind :: kinds => kind.Value × Values kinds

/-- Reads into the targets in order; the targets after one that fails keep their values. -/
def fillEach : (kinds : List FieldKind) → Values kinds → Buffer → Filled (Values kinds)
  | [], () => fun buffer => ⟨(), .ok (), buffer⟩
  | kind :: kinds, (first, others) => fun buffer =>
    (kind.fill (trailingSize kinds) first buffer).andThen others (fillEach kinds)

/-- Reads into the targets in order, unless their kinds cannot be laid out. -/
def fillAll (kinds : List FieldKind) (targets : Values kinds) (buffer : Buffer) :
    Filled (Values kinds) :=
  match layoutFault? kinds with
  | some fault => ⟨targets, .error (.layout fault), buffer⟩
  | none => fillEach kinds targets buffer

end FieldKind

/-- One entry of a field list: a kind and a value of it. -/
structure Field where
  kind : FieldKind
  value : kind.Value

namespace Field

def u8 (value : UInt8) : Field := ⟨.plain .u8, value⟩
def u16 (value : UInt16) : Field := ⟨.plain .u16, value⟩
def u32 (value : UInt32) : Field := ⟨.plain .u32, value⟩
def flag (value : Bool) : Field := ⟨.plain .flag, value⟩

/-- Bytes verbatim, of a length that the reader knows. -/
def array (bytes : Bytes) : Field := ⟨.plain (.block bytes.length), ⟨bytes, rfl⟩⟩

def ofWire {α : Type} [Wire α] (a : α) : Field := ⟨.ofWire α, Wire.toValue a⟩

def sized (bytes : Bytes) : Field := ⟨.sized, bytes⟩

def sizedOfWire {α : Type} [Wire α] (a : α) : Field :=
  ⟨.sizedPlain (Wire.layout α), Wire.toValue a⟩

def remainder (bytes : Bytes) : Field := ⟨.remainder, bytes⟩

def write (field : Field) : BufferM Unit := field.kind.write field.value

/-- Appends the fields in order; the fields before one that does not fit stay in the buffer. -/
def writeEach : List Field → BufferM Unit
  | [] => pure ()
  | field :: fields => do
    field.write
    writeEach fields

/-- Appends the fields in order, unless their kinds cannot be laid out. -/
def writeAll (fields : List Field) : BufferM Unit :=
  match FieldKind.layoutFault? (fields.map kind) with
  | some fault => throw (.layout fault)
  | none => writeEach fields

/-- The bytes of a field list. -/
def encode (fields : List Field) : Except Error Bytes :=
  let (result, buffer) := writeAll fields Buffer.empty
  result.map fun () => buffer.contents

/-- The kinds of a field list with the values apart. -/
def values : (fields : List Field) → FieldKind.Values (fields.map kind)
  | [] => ()
  | field :: fields => (field.value, values fields)

/-- The field list of some values. -/
def ofValues : (kinds : List FieldKind) → FieldKind.Values kinds → List Field
  | [], () => []
  | kind :: kinds, (first, others) => ⟨kind, first⟩ :: ofValues kinds others

end Field

end TrustedModule
