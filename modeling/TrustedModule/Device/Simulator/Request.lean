import TrustedModule.ReturnCode
import TrustedModule.Structure.Authorization
import TrustedModule.Structure.Header

/-!
# Requests to the simulator

What a command asks for, once its ordinal is known, its tag announces as many authorization blocks
as the ordinal needs, and its fixed parts are there. The authorization blocks are cut off the end of
the payload; what lies between the key handle and them is authorized as it stands.
-/

set_option autoImplicit false

namespace TrustedModule

/-- The commands that need authorization. -/
inductive AuthorizedCommand where
  | sealData
  | unsealData
  | loadKey2
  | getPubKey
  | quote2
  deriving DecidableEq, Repr

namespace AuthorizedCommand

def ordinal : AuthorizedCommand → UInt32
  | sealData => Ordinal.sealData
  | unsealData => Ordinal.unsealData
  | loadKey2 => Ordinal.loadKey2
  | getPubKey => Ordinal.getPubKey
  | quote2 => Ordinal.quote2

/-- How many authorization blocks the command carries. -/
def authCount : AuthorizedCommand → Nat
  | unsealData => 2
  | _ => 1

end AuthorizedCommand

inductive Operation where
  | oiap
  | osap
  | flushSpecific
  | pcrRead
  | authorized (command : AuthorizedCommand)
  deriving DecidableEq, Repr

namespace Operation

def ofOrdinal? (ordinal : UInt32) : Option Operation :=
  if ordinal = Ordinal.oiap then some .oiap
  else if ordinal = Ordinal.osap then some .osap
  else if ordinal = Ordinal.flushSpecific then some .flushSpecific
  else if ordinal = Ordinal.pcrRead then some .pcrRead
  else if ordinal = Ordinal.sealData then some (.authorized .sealData)
  else if ordinal = Ordinal.unsealData then some (.authorized .unsealData)
  else if ordinal = Ordinal.loadKey2 then some (.authorized .loadKey2)
  else if ordinal = Ordinal.getPubKey then some (.authorized .getPubKey)
  else if ordinal = Ordinal.quote2 then some (.authorized .quote2)
  else none

def authCount : Operation → Nat
  | authorized command => command.authCount
  | _ => 0

end Operation

inductive Request where
  | oiap
  | osap (command : OsapCommand)
  | flushSpecific (handle resource : UInt32)
  | pcrRead (index : UInt32)
  | authorized (command : AuthorizedCommand) (keyHandle : Handle) (params : Bytes)
      (auths : List CommandAuth)
  deriving DecidableEq, Repr

namespace Request

/-- A parameter that cannot be read is a bad one. -/
def orBadParameter {α : Type} (result : Except Error α) : Except ReturnCode α :=
  result.mapError fun _ => .badParameter

/-- Reads parameters off the front of a byte string. -/
def readParams {α : Type} (read : BufferM α) (params : Bytes) : Except ReturnCode α :=
  orBadParameter (read (Buffer.ofBytes params)).1

/-- The first `count` authorization blocks of a byte string. -/
def decodeAuths : Nat → Bytes → Except ReturnCode (List CommandAuth)
  | 0, _ => .ok []
  | count + 1, bytes => do
    let auth ← orBadParameter (Wire.decode CommandAuth bytes)
    return auth :: (← decodeAuths count (bytes.drop CommandAuth.wireLength))

def decodeAuthorized (command : AuthorizedCommand) (payload : Bytes) :
    Option (Except ReturnCode Request) :=
  let authLength := command.authCount * CommandAuth.wireLength
  if payload.length < 4 + authLength then
    some (.error .badParameter)
  else do
    let (head, authBytes) ← splitAt? (← difference? payload.length authLength) payload
    match decodeAuths command.authCount authBytes with
    | .error code => return .error code
    | .ok auths =>
      let keyHandle := UInt32.ofNat (ofBigEndian (← entries? 4 head))
      let params ← slice? 4 head.length head
      return .ok (.authorized command keyHandle params auths)

/-- What the payload of a command with this tag and ordinal asks for, or why it is refused; `none`
where bytes are reached for that are not there. -/
def decode (tag : UInt16) (ordinal : UInt32) (payload : Bytes) :
    Option (Except ReturnCode Request) :=
  match Operation.ofOrdinal? ordinal with
  | none => some (.error .badOrdinal)
  | some operation =>
    if Tag.authCount tag ≠ operation.authCount then
      some (.error .badTag)
    else
      match operation with
      | .oiap => some (.ok .oiap)
      | .osap => some ((orBadParameter (Wire.decode OsapCommand payload)).map .osap)
      | .flushSpecific =>
        some (readParams (do return .flushSpecific (← Buffer.readU32) (← Buffer.readU32)) payload)
      | .pcrRead => some (readParams (do return .pcrRead (← Buffer.readU32)) payload)
      | .authorized command => decodeAuthorized command payload

end Request

end TrustedModule
