import TrustedModule.Wire.Layout

/-!
# Version information

What a quote says about the device: a part of fixed size and whatever vendor data follows it.
-/

set_option autoImplicit false

namespace TrustedModule

structure CapVersionFixed where
  tag : UInt16 := 0
  version : Block 4 := default
  specLevel : UInt16 := 0
  errataRev : UInt8 := 0
  tpmVendorId : Block 4 := default
  vendorSpecificSize : UInt16 := 0
  deriving DecidableEq, Repr, Inhabited

instance : Wire CapVersionFixed where
  layout :=
    .record "CapVersionFixed" <| .field "tag" true .u16 <| .field "version" true (.block 4) <|
      .field "spec_level" true .u16 <| .field "errata_rev" true .u8 <|
      .field "tpm_vendor_id" true (.block 4) <| .field "vendor_specific_size" true .u16 .done
  toValue info :=
    (info.tag, info.version, info.specLevel, info.errataRev, info.tpmVendorId,
      info.vendorSpecificSize, ())
  ofValue
    | (tag, version, specLevel, errataRev, tpmVendorId, vendorSpecificSize, ()) =>
      { tag, version, specLevel, errataRev, tpmVendorId, vendorSpecificSize }

/-- The length of the fixed part. -/
def CapVersionFixed.wireLength : Nat := 15

structure CapVersionInfo where
  fixed : CapVersionFixed := {}
  vendorSpecific : Bytes := []
  deriving DecidableEq, Repr, Inhabited

/-- Splits a version blob; an empty one means that the device sent no version information. The
length that the fixed part declares for the vendor data is not consulted. -/
def CapVersionInfo.decode (bytes : Bytes) : Except Error (Option CapVersionInfo) :=
  if bytes.isEmpty then
    .ok none
  else if bytes.length < CapVersionFixed.wireLength then
    .error (.underflow CapVersionFixed.wireLength bytes.length)
  else
    (Wire.decode CapVersionFixed (bytes.take CapVersionFixed.wireLength)).map fun fixed =>
      some ⟨fixed, bytes.drop CapVersionFixed.wireLength⟩

end TrustedModule
