import TrustedModule.Wire.Layout

/-!
# Key structures
-/

set_option autoImplicit false

namespace TrustedModule

structure KeyParms where
  algorithmId : UInt32 := 0
  encScheme : UInt16 := 0
  sigScheme : UInt16 := 0
  /-- The parameters of the algorithm, in a form of its own. -/
  params : Bytes := []
  deriving DecidableEq, Repr, Inhabited

instance : Wire KeyParms where
  layout :=
    .record "KeyParms" <| .field "algorithm_id" true .u32 <| .field "enc_scheme" true .u16 <|
      .field "sig_scheme" true .u16 <| .field "params" true .sized .done
  toValue parms := (parms.algorithmId, parms.encScheme, parms.sigScheme, parms.params, ())
  ofValue
    | (algorithmId, encScheme, sigScheme, params, ()) =>
      { algorithmId, encScheme, sigScheme, params }

/-- What `KeyParms.params` holds for an RSA key. -/
structure RsaKeyParms where
  keyLength : UInt32 := 0
  numPrimes : UInt32 := 0
  exponent : Bytes := []
  deriving DecidableEq, Repr, Inhabited

instance : Wire RsaKeyParms where
  layout :=
    .record "RsaKeyParms" <| .field "key_length" true .u32 <| .field "num_primes" true .u32 <|
      .field "exponent" true .sized .done
  toValue parms := (parms.keyLength, parms.numPrimes, parms.exponent, ())
  ofValue | (keyLength, numPrimes, exponent, ()) => { keyLength, numPrimes, exponent }

structure PubKey where
  algorithmParams : KeyParms := {}
  key : Bytes := []
  deriving DecidableEq, Repr, Inhabited

instance : Wire PubKey where
  layout :=
    .record "PubKey" <| .field "algorithm_params" true (Wire.layout KeyParms) <|
      .field "key" true .sized .done
  toValue pub := (Wire.toValue pub.algorithmParams, pub.key, ())
  ofValue | (parms, key, ()) => { algorithmParams := Wire.ofValue parms, key }

/-- A wrapped key, as LoadKey2 takes it. -/
structure Key where
  version : UInt32 := 0
  keyUsage : UInt16 := 0
  keyFlags : UInt32 := 0
  authDataUsage : UInt8 := 0
  algorithmParams : KeyParms := {}
  pcrInfo : Bytes := []
  pubKey : Bytes := []
  encData : Bytes := []
  deriving DecidableEq, Repr, Inhabited

instance : Wire Key where
  layout :=
    .record "Key" <| .field "version" true .u32 <| .field "key_usage" true .u16 <|
      .field "key_flags" true .u32 <| .field "auth_data_usage" true .u8 <|
      .field "algorithm_params" true (Wire.layout KeyParms) <| .field "pcr_info" true .sized <|
      .field "pub_key" true .sized <| .field "enc_data" false .sized .done
  toValue key :=
    (key.version, key.keyUsage, key.keyFlags, key.authDataUsage, Wire.toValue key.algorithmParams,
      key.pcrInfo, key.pubKey, key.encData, ())
  ofValue
    | (version, keyUsage, keyFlags, authDataUsage, parms, pcrInfo, pubKey, encData, ()) =>
      { version, keyUsage, keyFlags, authDataUsage, algorithmParams := Wire.ofValue parms, pcrInfo,
        pubKey, encData }

end TrustedModule
