import TrustedModule.Command
import TrustedModule.Wire.Layout

/-!
# Platform configuration structures

A selection of platform configuration registers as a bit mask, and the two structures that bind
data or a quote to the values of selected registers.
-/

set_option autoImplicit false

namespace TrustedModule

/-- A bit mask of registers; the default has room for the 24 of a device and selects none. -/
structure PcrSelection where
  mask : Bytes := [0, 0, 0]
  deriving DecidableEq, Repr

instance : Inhabited PcrSelection := ⟨{}⟩

instance : Wire PcrSelection where
  layout := .record "PcrSelection" <| .field "mask" true .mask .done
  toValue selection := (selection.mask, ())
  ofValue | (mask, ()) => { mask }

structure PcrInfoLong where
  tag : UInt16 := Tag.pcrInfoLong
  localityAtCreation : UInt8 := 0
  localityAtRelease : UInt8 := 0
  creationPcrSelection : PcrSelection := {}
  releasePcrSelection : PcrSelection := {}
  digestAtCreation : Digest := default
  digestAtRelease : Digest := default
  deriving DecidableEq, Repr

instance : Inhabited PcrInfoLong := ⟨{}⟩

instance : Wire PcrInfoLong where
  layout :=
    .record "PcrInfoLong" <| .field "tag" true .u16 <| .field "locality_at_creation" true .u8 <|
      .field "locality_at_release" true .u8 <|
      .field "creation_pcr_selection" true (Wire.layout PcrSelection) <|
      .field "release_pcr_selection" true (Wire.layout PcrSelection) <|
      .field "digest_at_creation" true (.block 20) <|
      .field "digest_at_release" true (.block 20) .done
  toValue info :=
    (info.tag, info.localityAtCreation, info.localityAtRelease,
      Wire.toValue info.creationPcrSelection, Wire.toValue info.releasePcrSelection,
      info.digestAtCreation, info.digestAtRelease, ())
  ofValue
    | (tag, localityAtCreation, localityAtRelease, creation, release, digestAtCreation,
        digestAtRelease, ()) =>
      { tag, localityAtCreation, localityAtRelease, creationPcrSelection := Wire.ofValue creation,
        releasePcrSelection := Wire.ofValue release, digestAtCreation, digestAtRelease }

structure PcrInfoShort where
  pcrSelection : PcrSelection := {}
  localityAtRelease : UInt8 := 0
  digestAtRelease : Digest := default
  deriving DecidableEq, Repr

instance : Inhabited PcrInfoShort := ⟨{}⟩

instance : Wire PcrInfoShort where
  layout :=
    .record "PcrInfoShort" <| .field "pcr_selection" true (Wire.layout PcrSelection) <|
      .field "locality_at_release" true .u8 <| .field "digest_at_release" true (.block 20) .done
  toValue info := (Wire.toValue info.pcrSelection, info.localityAtRelease, info.digestAtRelease, ())
  ofValue
    | (selection, localityAtRelease, digestAtRelease, ()) =>
      { pcrSelection := Wire.ofValue selection, localityAtRelease, digestAtRelease }

end TrustedModule
