import TrustedModule.Command
import TrustedModule.Wire.Field

/-!
# Message headers

Every command and every response starts with ten bytes: a tag, the length of the whole message, and
the ordinal or the return code. `CommandHeader.frame` writes a command with its true length.
-/

set_option autoImplicit false

namespace TrustedModule

structure CommandHeader where
  tag : UInt16 := 0
  size : UInt32 := 0
  ordinal : UInt32 := 0
  deriving DecidableEq, Repr, Inhabited

instance : Wire CommandHeader where
  layout :=
    .record "CommandHeader" <| .field "tag" true .u16 <| .field "size" true .u32 <|
      .field "ordinal" true .u32 .done
  toValue header := (header.tag, header.size, header.ordinal, ())
  ofValue | (tag, size, ordinal, ()) => { tag, size, ordinal }

structure ResponseHeader where
  tag : UInt16 := 0
  size : UInt32 := 0
  returnCode : UInt32 := 0
  deriving DecidableEq, Repr, Inhabited

instance : Wire ResponseHeader where
  layout :=
    .record "ResponseHeader" <| .field "tag" true .u16 <| .field "size" true .u32 <|
      .field "return_code" true .u32 .done
  toValue header := (header.tag, header.size, header.returnCode, ())
  ofValue | (tag, size, returnCode, ()) => { tag, size, returnCode }

/-- The length of either header. -/
def headerSize : Nat := 10

/-- A command: the header with a length of zero, the fields, then the length patched in. -/
def CommandHeader.frame (tag : UInt16) (ordinal : UInt32) (fields : List Field) :
    Except Error Bytes :=
  let writeFrame : BufferM Unit := do
    Wire.write { tag, ordinal : CommandHeader }
    Field.writeAll fields
    let size := (← get).size
    if size < 0x100000000 then
      Buffer.patchU32 2 (UInt32.ofNat size)
    else
      throw (.overflow (.command size))
  let (result, buffer) := writeFrame Buffer.empty
  result.map fun () => buffer.contents

/-- The header at the front of a response, whatever follows it. -/
def ResponseHeader.unframe (bytes : Bytes) : Option (Except Error ResponseHeader) :=
  if bytes.length < headerSize then
    some (.error (.underflow headerSize bytes.length))
  else
    (slice? 0 headerSize bytes).map (Wire.decode ResponseHeader)

end TrustedModule
