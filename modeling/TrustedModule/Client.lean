import TrustedModule.Device
import TrustedModule.Device.Settings
import TrustedModule.Device.Special
import TrustedModule.Structure.Header

/-!
# Client of a device

A client sends one command and reads one answer at a time. `transfer` is the exchange of bytes:
one write, then one read if the whole command was taken; nothing is tried again. `receive` decides
what an answer means, in this order: it is shorter than a header, the device refused, the tag does
not answer the command's, the declared length is less than a header, or more than was read, or else
the body fills the caller's targets. Bytes after the declared length are never looked at.

An exchange has no outcome where the device halted, or where the client was told to read more
bytes than any buffer can hold; the latter shows only after a command was written. An answer has
none where bytes are reached for that were not read.
-/

set_option autoImplicit false

namespace TrustedModule

structure Client (σ : Type) where
  device : σ
  /-- The most bytes to read of an answer. -/
  maxResponse : Nat := 4096
  deriving Repr

/-- No buffer has this many bytes. -/
def bufferLimit : Nat := 0x8000000000000000

/-- A call of a device through a client; `none` where it has no outcome. -/
abbrev Exchange (σ α : Type) := ExceptT Error (StateT (Client σ) Option) α

/-- What a call leaves in the caller's targets, and the return code if it succeeded. -/
structure Received (kinds : List FieldKind) where
  targets : FieldKind.Values kinds
  result : Except Error UInt32

namespace Received

variable {kinds : List FieldKind}

/-- The targets as far as they were filled, and the return code if all of them were. -/
def ofFilled (returnCode : UInt32) (filled : Filled (FieldKind.Values kinds)) : Received kinds :=
  ⟨filled.target, filled.result.map fun () => returnCode⟩

/-- The return code and the targets, if the call succeeded. -/
def toExcept (received : Received kinds) : Except Error (UInt32 × FieldKind.Values kinds) :=
  received.result.map fun returnCode => (returnCode, received.targets)

end Received

/-- What is wrong with the header of an answer of `length` bytes to a command with this tag. -/
def ResponseHeader.check (tag : UInt16) (length : Nat) (header : ResponseHeader) :
    Except Error Unit :=
  let size := header.size.toNat
  if header.returnCode ≠ 0 then
    .error (.device ⟨header.returnCode⟩)
  else if header.tag ≠ Tag.answering tag then
    .error (.incorrectTag (Tag.answering tag) header.tag)
  else if size < headerSize then
    .error (.incorrectSize header.size)
  else if length < size then
    .error (.underflow size length)
  else
    .ok ()

/-- Fills the targets from the answer to a command with this tag, if it is a good one. -/
def receive (tag : UInt16) (kinds : List FieldKind) (targets : FieldKind.Values kinds)
    (answer : Bytes) : Option (Received kinds) := do
  match ← ResponseHeader.unframe answer with
  | .error error => return ⟨targets, .error error⟩
  | .ok header =>
    match header.check tag answer.length with
    | .error error => return ⟨targets, .error error⟩
    | .ok () =>
      if header.size.toNat = headerSize then
        return ⟨targets, .ok header.returnCode⟩
      else
        let body ← slice? headerSize header.size.toNat answer
        return .ofFilled header.returnCode
          (FieldKind.fillAll kinds targets (Buffer.ofBytes body))

namespace Client

/-- A client of the special file that the settings name. -/
def openPath (settings : DeviceSettings) : Option (Client SpecialFile) :=
  (SpecialFile.ofPath? settings.path).map fun device => ⟨device, settings.maxResponse⟩

variable {σ : Type} [Device σ]

/-- Writes bytes to the device, and tells how many it took. -/
def send (bytes : Bytes) : Exchange σ Nat := fun client =>
  (Device.write bytes client.device).map fun (written, device) =>
    (written.mapError .io, { client with device })

/-- Reads at most `limit` bytes of what the device has to say, if a buffer can have that size. -/
def readUpTo (limit : Nat) : Exchange σ Bytes := fun client =>
  if limit < bufferLimit then
    let (answer, device) := Device.read limit client.device
    some (answer.mapError .io, { client with device })
  else
    none

/-- Writes a command and reads its answer. -/
def transfer (request : Bytes) : Exchange σ Bytes := do
  let count ← send request
  if count = request.length then
    readUpTo (← get).maxResponse
  else
    throw (.shortWrite count request.length)

/-- Sends a command and fills the targets from its answer; they keep their values as far as they
are not filled. A command that has no encoding is not sent. -/
def submitInto (tag : UInt16) (ordinal : UInt32) (input : List Field) (kinds : List FieldKind)
    (targets : FieldKind.Values kinds) (client : Client σ) :
    Option (Received kinds × Client σ) :=
  match CommandHeader.frame tag ordinal input with
  | .error error => some (⟨targets, .error error⟩, client)
  | .ok request => do
    let (answer, client) ← transfer request client
    match answer with
    | .error error => return (⟨targets, .error error⟩, client)
    | .ok bytes => return (← receive tag kinds targets bytes, client)

/-- Sends a command and gives the return code and what its answer holds. -/
def submit (tag : UInt16) (ordinal : UInt32) (input : List Field) (kinds : List FieldKind)
    (initial : FieldKind.Values kinds) : Exchange σ (UInt32 × FieldKind.Values kinds) :=
  fun client =>
    (submitInto tag ordinal input kinds initial client).map fun (received, client) =>
      (received.toExcept, client)

end Client

end TrustedModule
