import TrustedModule.Text.Hexadecimal

/-!
# Return codes

A response carries a 32-bit return code; zero is success. A code with bit 11 set reports a passing
condition: the same command may be sent again later.
-/

set_option autoImplicit false

namespace TrustedModule

structure ReturnCode where
  value : UInt32
  deriving DecidableEq, Repr

namespace ReturnCode

def success : ReturnCode := ⟨0x00⟩
def authFail : ReturnCode := ⟨0x01⟩
def badIndex : ReturnCode := ⟨0x02⟩
def badParameter : ReturnCode := ⟨0x03⟩
def badOrdinal : ReturnCode := ⟨0x0A⟩
def invalidKeyHandle : ReturnCode := ⟨0x0C⟩
def keyNotFound : ReturnCode := ⟨0x0D⟩
def noSpace : ReturnCode := ⟨0x11⟩
def notSealedBlob : ReturnCode := ⟨0x13⟩
def resources : ReturnCode := ⟨0x15⟩
def auth2Fail : ReturnCode := ⟨0x1D⟩
def badTag : ReturnCode := ⟨0x1E⟩
def invalidAuthHandle : ReturnCode := ⟨0x22⟩
def invalidResource : ReturnCode := ⟨0x35⟩

/-- The bit that marks a passing condition. -/
def nonFatalBit : UInt32 := 0x800

def isSuccess (code : ReturnCode) : Bool :=
  code == success

/-- The device has no free slot for a session or a key. -/
def isExhausted (code : ReturnCode) : Bool :=
  code == resources || code == noSpace

/-- The command names a session, key or resource that the device does not hold. -/
def isNotFound (code : ReturnCode) : Bool :=
  code == invalidAuthHandle || code == invalidKeyHandle || code == keyNotFound ||
    code == invalidResource

def isNonFatal (code : ReturnCode) : Bool :=
  code.value &&& nonFatalBit != 0

def descriptions : List (UInt32 × String) := [
  (0x00, "success"),
  (0x01, "authentication failed"),
  (0x02, "the index to a PCR, DIR or other register is incorrect"),
  (0x03, "one or more parameter is bad"),
  (0x04, "an operation completed successfully but the auditing of that operation failed"),
  (0x05, "the clear disable flag is set and all clear operations now require physical access"),
  (0x06, "the TPM is deactivated"),
  (0x07, "the TPM is disabled"),
  (0x08, "the target command has been disabled"),
  (0x09, "the operation failed"),
  (0x0A, "the ordinal was unknown or inconsistent"),
  (0x0B, "the ability to install an owner is disabled"),
  (0x0C, "the key handle can not be interpreted"),
  (0x0D, "the key handle points to an invalid key"),
  (0x0E, "unacceptable encryption scheme"),
  (0x0F, "migration authorization failed"),
  (0x10, "PCR information could not be interpreted"),
  (0x11, "no room to load key"),
  (0x12, "there is no SRK set"),
  (0x13, "an encrypted blob is invalid or was not created by this TPM"),
  (0x14, "there is already an owner"),
  (0x15, "the TPM has insufficient internal resources to perform the requested action"),
  (0x16, "a random string was too short"),
  (0x17, "the TPM does not have the space to perform the operation"),
  (0x18, "the named PCR value does not match the current PCR value"),
  (0x19, "the paramSize argument to the command has the incorrect value"),
  (0x1A, "there is no existing SHA-1 thread"),
  (0x1B, "the calculation is unable to proceed because the existing SHA-1 thread has already " ++
    "encountered an error"),
  (0x1C, "self-test has failed and the TPM has shut down"),
  (0x1D, "the authorization for the second key in a 2 key function failed authorization"),
  (0x1E, "the tag value sent to for a command is invalid"),
  (0x1F, "an IO error occurred transmitting information to the TPM"),
  (0x20, "the encryption process had a problem"),
  (0x21, "the decryption process did not complete"),
  (0x22, "an invalid handle was used"),
  (0x23, "the TPM does not have an endorsement key installed"),
  (0x24, "the usage of a key is not allowed"),
  (0x25, "the submitted entity type is not allowed"),
  (0x26, "the command was received in the wrong sequence relative to TPM_Init and a subsequent " ++
    "TPM_Startup"),
  (0x27, "signed data cannot include additional DER information"),
  (0x28, "the key properties in TPM_KEY_PARMs are not supported by this TPM"),
  (0x29, "the migration properties of this key are incorrect"),
  (0x2A, "the signature or encryption scheme for this key is incorrect or not permitted in this " ++
    "situation"),
  (0x2B, "the size of the data parameter is bad or inconsistent with the referenced key"),
  (0x2C, "a mode parameter is bad"),
  (0x2D, "either the physicalPresence or physicalPresenceLock bits have the wrong value"),
  (0x2E, "the TPM cannot perform this version of the capability"),
  (0x2F, "the TPM does not allow for wrapped transport sessions"),
  (0x33, "the command must be executed at a locality that the PCR allows to be reset"),
  (0x34, "the command requires the type of a resource that was not supplied"),
  (0x35, "the resource pointed to by the context is not loaded"),
  (0x3D, "the locality is incorrect for the attempted operation"),
  (0x43, "the structure tag and version are invalid or inconsistent"),
  (0x47, "the gap between saved context counts is too large"),
  (0x4A, "a required resource is missing"),
  (0x800, "the TPM is too busy to respond to the command immediately, but the command could be " ++
    "resubmitted at a later time")]

/-- What the code means; only the whole code is looked up, whatever its bits. -/
def message (code : ReturnCode) : String :=
  (descriptions.lookup code.value).getD "unknown TPM error"

/-- The code and its meaning, with the advice to retry for a passing condition. -/
def text (code : ReturnCode) : String :=
  let advice := if code.isNonFatal then ", retry later" else ""
  "0x" ++ Text.hexadecimal code.value.toNat ++ " (" ++ code.message ++ advice ++ ")"

end ReturnCode

end TrustedModule
