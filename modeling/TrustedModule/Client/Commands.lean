import TrustedModule.Client
import TrustedModule.Parameters

/-!
# Commands

One function for each command of the device. A function fixes the tag, the ordinal and the fields
of its command, sends it once and gives back what the answer holds. The caller builds the
authorization blocks, over the lists of `Parameters`.
-/

set_option autoImplicit false

namespace TrustedModule

structure SealResult where
  stored : StoredData
  responseAuth : ResponseAuth
  deriving DecidableEq, Repr

structure UnsealResult where
  secret : Bytes
  keyResponse : ResponseAuth
  dataResponse : ResponseAuth
  deriving DecidableEq, Repr

structure LoadKeyResult where
  handle : Handle
  responseAuth : ResponseAuth
  deriving DecidableEq, Repr

structure PubKeyResult where
  pubKey : PubKey
  responseAuth : ResponseAuth
  deriving DecidableEq, Repr

namespace Client

variable {σ : Type} [Device σ]

/-- Opens an object-independent session on the device. -/
def oiap : Exchange σ OiapResponse := do
  let (_, response, ()) ← submit Tag.request Ordinal.oiap [] [.ofWire OiapResponse]
    (Wire.toValue (default : OiapResponse), ())
  return Wire.ofValue response

/-- Opens an object-specific session on the device. -/
def osap (command : OsapCommand) : Exchange σ OsapResponse := do
  let (_, response, ()) ← submit Tag.request Ordinal.osap [.ofWire command] [.ofWire OsapResponse]
    (Wire.toValue (default : OsapResponse), ())
  return Wire.ofValue response

/-- Seals data under a storage key, bound to the register state of `pcrInfo` if there is one. -/
def sealData (command : SealCommand) (pcrInfo : Option PcrInfoLong) (data : Bytes)
    (auth : CommandAuth) : Exchange σ SealResult := do
  let (_, stored, responseAuth, ()) ← submit Tag.request1 Ordinal.sealData
    (.u32 command.keyHandle :: Parameters.sealData command pcrInfo data ++ [.ofWire auth])
    [.ofWire StoredData, .ofWire ResponseAuth]
    (Wire.toValue (default : StoredData), Wire.toValue (default : ResponseAuth), ())
  return ⟨Wire.ofValue stored, Wire.ofValue responseAuth⟩

/-- Recovers the data of a sealed blob; `keyAuth` authorizes the key and `dataAuth` the blob. The
secret is what the answer holds between its length and the two blocks at its end, so its length is
compared with the declared one afterwards. -/
def unsealData (keyHandle : Handle) (stored : StoredData) (keyAuth dataAuth : CommandAuth) :
    Exchange σ UnsealResult := do
  let (_, size, secret, keyResponse, dataResponse, ()) ← submit Tag.request2 Ordinal.unsealData
    [.u32 keyHandle, .ofWire stored, .ofWire keyAuth, .ofWire dataAuth]
    [.plain .u32, .remainder, .ofWire ResponseAuth, .ofWire ResponseAuth]
    (0, [], Wire.toValue (default : ResponseAuth), Wire.toValue (default : ResponseAuth), ())
  if size.toNat = secret.length then
    return ⟨secret, Wire.ofValue keyResponse, Wire.ofValue dataResponse⟩
  else
    throw (.layout (.secretLength size secret.length))

/-- Loads a wrapped key under the storage root key. -/
def loadKey2 (key : Key) (auth : CommandAuth) : Exchange σ LoadKeyResult := do
  let (_, handle, responseAuth, ()) ← submit Tag.request1 Ordinal.loadKey2
    [.u32 Handle.storageRootKey, .ofWire key, .ofWire auth]
    [.plain .u32, .ofWire ResponseAuth] (0, Wire.toValue (default : ResponseAuth), ())
  return ⟨handle, Wire.ofValue responseAuth⟩

def getPubKey (keyHandle : Handle) (auth : CommandAuth) : Exchange σ PubKeyResult := do
  let (_, pubKey, responseAuth, ()) ← submit Tag.request1 Ordinal.getPubKey
    [.u32 keyHandle, .ofWire auth] [.ofWire PubKey, .ofWire ResponseAuth]
    (Wire.toValue (default : PubKey), Wire.toValue (default : ResponseAuth), ())
  return ⟨Wire.ofValue pubKey, Wire.ofValue responseAuth⟩

/-- Signs external data together with the selected registers. -/
def quote2 (keyHandle : Handle) (externalData : Digest) (selection : PcrSelection)
    (addVersion : Bool) (auth : CommandAuth) : Exchange σ Quote := do
  let (_, pcrInfo, capBytes, signature, responseAuth, ()) ← submit Tag.request1 Ordinal.quote2
    (.u32 keyHandle :: Parameters.quote2 externalData selection addVersion ++ [.ofWire auth])
    [.ofWire PcrInfoShort, .sized, .sized, .ofWire ResponseAuth]
    (Wire.toValue (default : PcrInfoShort), [], [], Wire.toValue (default : ResponseAuth), ())
  match CapVersionInfo.decode capBytes with
  | .error error => throw error
  | .ok capInfo =>
    return { pcrInfo := Wire.ofValue pcrInfo, capInfo, capBytes, signature,
             responseAuth := Wire.ofValue responseAuth }

/-- Releases a key or a session on the device. -/
def flushSpecific (handle : Handle) (resource : UInt32) : Exchange σ Unit := do
  let (_, ()) ← submit Tag.request Ordinal.flushSpecific [.u32 handle, .u32 resource] [] ()
  return ()

def pcrRead (index : UInt32) : Exchange σ Digest := do
  let (_, value, ()) ← submit Tag.request Ordinal.pcrRead [.u32 index] [.plain (.block 20)]
    (.zero 20, ())
  return value

end Client

end TrustedModule
