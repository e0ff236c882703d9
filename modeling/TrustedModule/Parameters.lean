import TrustedModule.Structure.Authorization
import TrustedModule.Structure.Key
import TrustedModule.Structure.Pcr
import TrustedModule.Structure.Storage
import TrustedModule.Structure.Version
import TrustedModule.Wire.Field

/-!
# Authorized parameters

The field lists that the authorization digests of a command and of its response cover: everything
but the handles and the authorization blocks.
-/

set_option autoImplicit false

namespace TrustedModule

/-- What Quote2 answers. -/
structure Quote where
  pcrInfo : PcrInfoShort
  /-- The version information, if the device sent any. -/
  capInfo : Option CapVersionInfo
  /-- The version blob as received, which is part of what is signed. -/
  capBytes : Bytes
  signature : Bytes
  responseAuth : ResponseAuth
  deriving DecidableEq, Repr

namespace Parameters

/-- Without register information, a zero stands in the place of its length. -/
def sealData (command : SealCommand) (pcrInfo : Option PcrInfoLong) (data : Bytes) :
    List Field :=
  [.array command.encAuth.bytes,
    match pcrInfo with
    | some info => .sizedOfWire info
    | none => .u32 0,
    .sized data]

def unsealData (stored : StoredData) : List Field := [.ofWire stored]

def loadKey2 (key : Key) : List Field := [.ofWire key]

def quote2 (externalData : Digest) (selection : PcrSelection) (addVersion : Bool) : List Field :=
  [.array externalData.bytes, .ofWire selection, .flag addVersion]

/-- What Unseal returns. -/
def unsealDataOut (secret : Bytes) : Except Error (List Field) :=
  if secret.length < 0x100000000 then
    .ok [.u32 (UInt32.ofNat secret.length), .array secret]
  else
    .error (.overflow (.secret secret.length))

/-- What Quote2 returns. -/
def quote2Out (quote : Quote) : List Field :=
  [.ofWire quote.pcrInfo, .sized quote.capBytes, .sized quote.signature]

end Parameters

end TrustedModule
