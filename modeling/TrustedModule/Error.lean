import TrustedModule.ReturnCode

/-!
# Errors

What can go wrong between a caller and a device: the transport fails, bytes are missing or do not
fit, a field list cannot be laid out, the device refuses, or its answer cannot be trusted.
`Error.message` holds every wording.
-/

set_option autoImplicit false

namespace TrustedModule

/-- A quantity that does not fit the place it has to go to. -/
inductive Overflow where
  | sizedBytes (length : Nat)
  | sizedStructure (length : Nat)
  | command (length : Nat)
  | pcrMask (length : Nat)
  | secret (length : Nat)
  | patch (position : Nat)
  | pcrIndex (index : UInt32) (maskLength : Nat)
  | other (text : String)
  deriving DecidableEq, Repr

/-- A field list or a body whose parts do not add up. -/
inductive LayoutFault where
  | prefixedBesideRemainder
  | secondRemainder
  | variableAfterRemainder
  | unreadBytes (left declared : Nat)
  | secretLength (declared : UInt32) (received : Nat)
  | pcrValueCount (selected supplied : Nat)
  | other (text : String)
  deriving DecidableEq, Repr

/-- Why key material is no RSA public key. -/
inductive KeyFault where
  | algorithm (id : UInt32)
  | modulusTooLarge
  | exponentTooLarge
  | invalidModulus
  | invalidExponent
  | exponentTooSmall
  | other (text : String)
  deriving DecidableEq, Repr

inductive Error where
  | io (text : String)
  | shortWrite (written expected : Nat)
  | underflow (needed remaining : Nat)
  | overflow (what : Overflow)
  | layout (fault : LayoutFault)
  | device (code : ReturnCode)
  | incorrectTag (expected received : UInt16)
  | incorrectSize (declared : UInt32)
  | sessionTerminated (handle : UInt32)
  | responseAuthMismatch
  | invalidKey (fault : KeyFault)
  deriving DecidableEq, Repr

def Overflow.message : Overflow → String
  | sizedBytes length => s!"{length} bytes do not fit a u32 size prefix"
  | sizedStructure length => s!"structure of {length} bytes does not fit a u32 size prefix"
  | command length => s!"command of {length} bytes"
  | pcrMask length => s!"PCR mask of {length} bytes"
  | secret length => s!"secret of {length} bytes"
  | patch position => s!"cannot patch u32 at offset {position}"
  | pcrIndex index maskLength => s!"PCR {index} outside a {maskLength}-byte selection"
  | other text => text

def LayoutFault.message : LayoutFault → String
  | prefixedBesideRemainder => "length-prefixed and remainder fields cannot share a field list"
  | secondRemainder => "more than one remainder field"
  | variableAfterRemainder => "only fixed-size fields may follow a remainder field"
  | unreadBytes left declared =>
    s!"sized structure left {left} of {declared} declared bytes unread"
  | secretLength declared received =>
    s!"unsealed size {declared} does not match {received} returned bytes"
  | pcrValueCount selected supplied =>
    s!"{selected} PCRs selected but {supplied} values supplied"
  | other text => text

def KeyFault.message : KeyFault → String
  | algorithm id => "algorithm 0x" ++ Text.hexadecimal id.toNat ++ " is not RSA"
  | modulusTooLarge => "modulus too large"
  | exponentTooLarge => "public exponent too large"
  | invalidModulus => "invalid modulus"
  | invalidExponent => "invalid exponent"
  | exponentTooSmall => "public exponent too small"
  | other text => text

namespace Error

def message : Error → String
  | io text => "I/O error: " ++ text
  | shortWrite written expected =>
    s!"short write to TPM: wrote {written} of {expected} bytes"
  | underflow needed remaining =>
    s!"buffer underflow: needed {needed} bytes, {remaining} remaining"
  | overflow what => "buffer overflow: " ++ what.message
  | layout fault => "unsupported field layout: " ++ fault.message
  | device code => "TPM error " ++ code.text
  | incorrectTag expected received =>
    "incorrect tag: expected 0x" ++ Text.hexadecimal expected.toNat ++ ", got 0x" ++
      Text.hexadecimal received.toNat
  | incorrectSize declared => s!"incorrect response size {declared}"
  | sessionTerminated handle =>
    "authorization session 0x" ++ Text.paddedHexadecimal 8 handle.toNat ++ " has been terminated"
  | responseAuthMismatch => "response authorization digest mismatch"
  | invalidKey fault => "invalid key: " ++ fault.message

/-- The code that the device refused with, if it did. -/
def returnCode? : Error → Option ReturnCode
  | device code => some code
  | _ => none

/-- The byte transport itself failed, so the device may not have seen the command. -/
def isTransport : Error → Bool
  | io _ | shortWrite _ _ => true
  | _ => false

def isExhausted (error : Error) : Bool :=
  error.returnCode?.any ReturnCode.isExhausted

def isNotFound (error : Error) : Bool :=
  error.returnCode?.any ReturnCode.isNotFound

end Error

end TrustedModule
