import TrustedModule.Command
import TrustedModule.Wire.Layout

/-!
# Sealed storage structures
-/

set_option autoImplicit false

namespace TrustedModule

/-- The parameters that lead a Seal command. -/
structure SealCommand where
  keyHandle : Handle := 0
  /-- The usage secret of the blob, encrypted under the session. -/
  encAuth : Digest := default
  deriving DecidableEq, Repr, Inhabited

instance : Wire SealCommand where
  layout :=
    .record "SealCommand" <| .field "key_handle" true .u32 <|
      .field "enc_auth" false (.block 20) .done
  toValue command := (command.keyHandle, command.encAuth, ())
  ofValue | (keyHandle, encAuth, ()) => { keyHandle, encAuth }

/-- A sealed blob, as Seal returns it and Unseal takes it. -/
structure StoredData where
  version : UInt32 := 0x01010000
  sealInfo : Bytes := []
  encData : Bytes := []
  deriving DecidableEq, Repr

/-- The version of every blob that a device seals. -/
def StoredData.sealedVersion : UInt32 := 0x01010000

instance : Inhabited StoredData := ⟨{}⟩

instance : Wire StoredData where
  layout :=
    .record "TpmStoredData" <| .field "version" true .u32 <| .field "seal_info" true .sized <|
      .field "enc_data" true .sized .done
  toValue stored := (stored.version, stored.sealInfo, stored.encData, ())
  ofValue | (version, sealInfo, encData, ()) => { version, sealInfo, encData }

end TrustedModule
