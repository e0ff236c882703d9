import TrustedModule.Authorization.Session
import TrustedModule.Device
import TrustedModule.Device.Simulator.HandleTable
import TrustedModule.Device.Simulator.Request
import TrustedModule.Parameters
import TrustedModule.Pcr.Composite
import TrustedModule.Rsa.PublicKey

/-!
# Simulated device

A small model of a device: a bounded table of sessions whose nonces roll and whose digests are
checked, a set of loaded keys, 24 registers, and sealing that wraps the data as it stands. It halts
where it reaches for something that is not there: for bytes of a command, for a register that an
accepted Quote2 selects, or for the session of the second block of an accepted Unseal, which the
first block may have closed.
-/

set_option autoImplicit false

namespace TrustedModule

/-- The usage secret of every entity that the simulator knows. -/
def wellKnownSecret : Digest := .zero 20

/-- The device's side of a session. -/
structure SimulatorSession where
  nonceEven : Digest
  secret : Digest
  deriving DecidableEq, Repr

structure Simulator where
  sessions : HandleTable SimulatorSession := {}
  keys : List Handle := [Handle.storageRootKey]
  registers : List Digest := (List.range 24).map fun i => sha1 [UInt8.ofNat i]
  nextSession : Handle := 0x02000000
  nextKey : Handle := 0x01000000
  /-- How many nonces were drawn. -/
  nonceCounter : UInt32 := 0
  /-- The answer to the last command, until it is read. -/
  pending : Option Bytes := none
  maxSessions : Nat := 3
  /-- The ordinals of all commands so far whose header could be read. -/
  ordinals : List UInt32 := []
  deriving DecidableEq, Repr

namespace Simulator

def openSessions (sim : Simulator) : Nat := sim.sessions.size

def hasKey (sim : Simulator) (handle : Handle) : Bool := sim.keys.contains handle

def register? (sim : Simulator) (index : Nat) : Option Digest := sim.registers[index]?

/-- The nonce that follows `count` draws. -/
def nonceAfter (count : UInt32) : Digest := sha1 (bigEndian 4 (count + 1).toNat)

/-- The next even nonce, which is never drawn again. -/
def drawNonce (sim : Simulator) : Digest × Simulator :=
  (nonceAfter sim.nonceCounter, { sim with nonceCounter := sim.nonceCounter + 1 })

/-- A new session with this secret, if the table has room. -/
def openSession (secret : Digest) (sim : Simulator) :
    Except ReturnCode (Handle × Digest) × Simulator :=
  if sim.maxSessions ≤ sim.sessions.size then
    (.error .resources, sim)
  else
    let handle := sim.nextSession
    let (nonceEven, sim) := { sim with nextSession := handle + 1 }.drawNonce
    (.ok (handle, nonceEven),
      { sim with sessions := sim.sessions.insert handle { nonceEven, secret } })

/-! ## Sample data -/

/-- The vendor data behind the fixed part of the simulator's version information. -/
def vendorData : Bytes := [0xAA, 0xBB, 0xCC]

def versionInfo : CapVersionFixed :=
  { tag := Tag.capVersionInfo
    version := ⟨[1, 2, 3, 0], rfl⟩
    specLevel := 2
    errataRev := 3
    tpmVendorId := ⟨[0x53, 0x49, 0x4D, 0x20], rfl⟩
    vendorSpecificSize := 3 }

def versionBlob : Except Error Bytes :=
  (Wire.encode versionInfo).map (· ++ vendorData)

/-- The public part of every key that the simulator holds. -/
def publicKey : Except Error PubKey :=
  (Wire.encode { keyLength := 2048, numPrimes := 2 : RsaKeyParms }).map fun params =>
    { algorithmParams := { algorithmId := rsaAlgorithm, encScheme := 1, sigScheme := 2, params }
      key := List.replicate 256 0xC3 }

/-- The signature under every quote. -/
def quoteSignature : Bytes := List.replicate 256 0x5A

/-! ## Authorized commands -/

/-- Checks the blocks in order; `refusal` is the answer to a wrong digest in the first of them. -/
def checkAuths (sim : Simulator) (paramDigest : Digest) :
    ReturnCode → List CommandAuth → Except ReturnCode Unit
  | _, [] => .ok ()
  | refusal, auth :: auths =>
    match sim.sessions.find? auth.authHandle with
    | none => .error .invalidAuthHandle
    | some session =>
      if authDigest session.secret.bytes paramDigest session.nonceEven auth.nonceOdd
          auth.continueAuthSession = auth.auth then
        sim.checkAuths paramDigest .auth2Fail auths
      else
        .error refusal

/-- The handles and the parameters that an authorized command gives out. -/
structure Output where
  handles : Bytes := []
  params : Bytes
  deriving DecidableEq, Repr

/-- The values of the registers, if the simulator has them all. -/
def registerValues? (sim : Simulator) (indices : List UInt32) : Option (List Digest) :=
  indices.mapM fun index => sim.register? index.toNat

/-- The register information and the version blob of a quote, with the signature. -/
def quoteOutput (selection : PcrSelection) (values : List Digest) (addVersion : Bool) :
    Except Error Bytes := do
  let digest ← compositeDigest selection values
  let info : PcrInfoShort :=
    { pcrSelection := selection, localityAtRelease := 1, digestAtRelease := digest }
  let capBytes ← if addVersion then versionBlob else .ok []
  Field.encode [.ofWire info, .sized capBytes, .sized quoteSignature]

def runSeal (params : Bytes) : Except ReturnCode Bytes := do
  let stored ← Request.readParams (do
    let _ ← Buffer.readBlock 20
    let sealInfo ← Buffer.readSized
    let encData ← Buffer.readSized
    return { version := StoredData.sealedVersion, sealInfo, encData : StoredData }) params
  Request.orBadParameter (Wire.encode stored)

def runUnseal (params : Bytes) : Except ReturnCode Bytes := do
  let stored ← Request.orBadParameter (Wire.decode StoredData params)
  if stored.version = StoredData.sealedVersion then
    Request.orBadParameter (Field.encode [.sized stored.encData])
  else
    throw .notSealedBlob

/-- What a quote is asked over: external data, a selection and whether to add the version. -/
def readQuote : BufferM (Digest × PcrSelection × Bool) := do
  let externalData ← Buffer.readBlock 20
  let mask ← Buffer.readMask
  let addVersion ← Buffer.readFlag
  return (externalData, { mask }, addVersion)

/-- Runs a command that was authorized; `none` if it selects a register that is not there. -/
def perform (command : AuthorizedCommand) (params : Bytes) (sim : Simulator) :
    Option (Except ReturnCode Output × Simulator) :=
  match command with
  | .sealData => some ((runSeal params).map fun params => { params }, sim)
  | .unsealData => some ((runUnseal params).map fun params => { params }, sim)
  | .loadKey2 =>
    match Request.orBadParameter (Wire.decode Key params) with
    | .error code => some (.error code, sim)
    | .ok _ =>
      let handle := sim.nextKey
      some (.ok { handles := bigEndian 4 handle.toNat, params := [] },
        { sim with nextKey := handle + 1, keys := sim.keys.insert handle })
  | .getPubKey =>
    some (Request.orBadParameter (publicKey.bind Wire.encode) |>.map fun params => { params }, sim)
  | .quote2 =>
    match Request.readParams readQuote params with
    | .error code => some (.error code, sim)
    | .ok (_, selection, addVersion) =>
      (sim.registerValues? selection.indices).map fun values =>
        (Request.orBadParameter (quoteOutput selection values addVersion) |>.map
          fun params => { params }, sim)

/-- Answers the blocks of an accepted command in order: each session gets a new nonce, or is closed
if its block asks for that; `none` if an earlier block has closed the session of a later one. -/
def answerAuths (outDigest : Digest) :
    List CommandAuth → Simulator → Option (List ResponseAuth × Simulator)
  | [], sim => some ([], sim)
  | block :: blocks, sim =>
    let (nonceEven, sim) := sim.drawNonce
    match sim.sessions.find? block.authHandle with
    | none => none
    | some session =>
      let keep := block.continueAuthSession
      let answer : ResponseAuth :=
        { nonceEven
          continueAuthSession := keep
          auth := authDigest session.secret.bytes outDigest nonceEven block.nonceOdd keep }
      let sessions :=
        if keep then sim.sessions.insert block.authHandle { session with nonceEven }
        else sim.sessions.erase block.authHandle
      (answerAuths outDigest blocks { sim with sessions }).map fun (answers, sim) =>
        (answer :: answers, sim)

def runAuthorized (command : AuthorizedCommand) (keyHandle : Handle) (params : Bytes)
    (auths : List CommandAuth) (sim : Simulator) :
    Option (Except ReturnCode Bytes × Simulator) :=
  if sim.hasKey keyHandle then
    match sim.checkAuths (commandDigest command.ordinal params) .authFail auths with
    | .error code => some (.error code, sim)
    | .ok () =>
      match sim.perform command params with
      | none => none
      | some (.error code, sim) => some (.error code, sim)
      | some (.ok output, sim) =>
        (answerAuths (responseDigest 0 command.ordinal output.params) auths sim).map
          fun (answers, sim) =>
            (Request.orBadParameter (Field.encode (answers.map Field.ofWire)) |>.map
              fun blocks => output.handles ++ output.params ++ blocks, sim)
  else
    some (.error .invalidKeyHandle, sim)

/-! ## All commands -/

def runFlush (handle resource : UInt32) (sim : Simulator) : Except ReturnCode Bytes × Simulator :=
  if resource = Resource.auth then
    if sim.sessions.contains handle then
      (.ok [], { sim with sessions := sim.sessions.erase handle })
    else
      (.error .invalidAuthHandle, sim)
  else if resource = Resource.key then
    if sim.hasKey handle then
      (.ok [], { sim with keys := sim.keys.filter (· != handle) })
    else
      (.error .invalidKeyHandle, sim)
  else
    (.error .invalidResource, sim)

def runOiap (sim : Simulator) : Except ReturnCode Bytes × Simulator :=
  let (opened, sim) := sim.openSession wellKnownSecret
  (opened.bind fun (authHandle, nonceEven) =>
    Request.orBadParameter (Wire.encode { authHandle, nonceEven : OiapResponse }), sim)

/-- The nonce of the handshake is drawn even if the table turns out to be full. -/
def runOsap (command : OsapCommand) (sim : Simulator) : Except ReturnCode Bytes × Simulator :=
  let (nonceEvenOsap, sim) := sim.drawNonce
  let secret := sharedSecret wellKnownSecret nonceEvenOsap command.nonceOddOsap
  let (opened, sim) := sim.openSession secret
  (opened.bind fun (authHandle, nonceEven) =>
    Request.orBadParameter (Wire.encode { authHandle, nonceEven, nonceEvenOsap : OsapResponse }),
    sim)

def run (request : Request) (sim : Simulator) : Option (Except ReturnCode Bytes × Simulator) :=
  match request with
  | .oiap => some sim.runOiap
  | .osap command => some (sim.runOsap command)
  | .flushSpecific handle resource => some (sim.runFlush handle resource)
  | .pcrRead index =>
    some ((sim.register? index.toNat).elim (.error .badIndex) (.ok ·.bytes), sim)
  | .authorized command keyHandle params auths =>
    sim.runAuthorized command keyHandle params auths

/-- An answer: a header with the true length, and the body. -/
def answer (tag : UInt16) (code : ReturnCode) (body : Bytes) : Bytes :=
  bigEndian 2 tag.toNat ++ bigEndian 4 (headerSize + body.length) ++
    bigEndian 4 code.value.toNat ++ body

/-- Executes a command and gives its answer; a refusal has no body. -/
def execute (command : Bytes) (sim : Simulator) : Option (Bytes × Simulator) :=
  match Wire.decode CommandHeader command with
  | .error _ => some (answer Tag.response .badParameter [], sim)
  | .ok header => do
    let sim := { sim with ordinals := sim.ordinals ++ [header.ordinal] }
    let tag := Tag.answering header.tag
    let payload ← slice? headerSize command.length command
    match ← Request.decode header.tag header.ordinal payload with
    | .error code => return (answer tag code [], sim)
    | .ok request =>
      let (result, sim) ← sim.run request
      match result with
      | .error code => return (answer tag code [], sim)
      | .ok body => return (answer tag .success body, sim)

instance : Device Simulator where
  write command sim :=
    (sim.execute command).map fun (answer, sim) =>
      (.ok command.length, { sim with pending := some answer })
  read limit sim :=
    match sim.pending with
    | none => (.error "no command pending", sim)
    | some answer => (.ok (answer.take limit), { sim with pending := none })

end Simulator

end TrustedModule
