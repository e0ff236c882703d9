import TrustedModule.Digest.Sha1
import TrustedModule.Pcr.Selection

/-!
# Composite digests

The values of several registers are bound by one digest over the selection, the total length of the
values and the values themselves, one for each selected register in ascending order.
-/

set_option autoImplicit false

namespace TrustedModule

/-- What the composite digest is taken over. -/
def compositeBytes (selection : PcrSelection) (values : List Digest) : Except Error Bytes :=
  (Wire.encode selection).map fun mask =>
    mask ++ bigEndian 4 (values.length * 20) ++ values.flatMap Block.bytes

def compositeDigest (selection : PcrSelection) (values : List Digest) : Except Error Digest :=
  let selected := selection.indices.length
  if selected = values.length then
    (compositeBytes selection values).map sha1
  else
    .error (.layout (.pcrValueCount selected values.length))

/-- The binding that releases data only while the selected registers hold `values`. -/
def PcrInfoLong.forRelease (selection : PcrSelection) (values : List Digest)
    (locality : UInt8) : Except Error PcrInfoLong :=
  (compositeDigest selection values).map fun digest =>
    { localityAtCreation := locality
      localityAtRelease := locality
      creationPcrSelection := selection
      releasePcrSelection := selection
      digestAtCreation := digest
      digestAtRelease := digest }

end TrustedModule
