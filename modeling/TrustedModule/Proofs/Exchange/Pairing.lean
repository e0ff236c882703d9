import TrustedModule.Client.Sessions
import TrustedModule.Device.Playback
import TrustedModule.Proofs.Exchange.Handlers

/-!
# Commands and answers in pairs

Whatever the calls of a client and however they end, a command is offered to the device once, and
one answer is read for it if the device took all of it. On a playback device this keeps commands and
answers in step: the responses go, in their order, to the calls whose commands were taken whole.

How often a device is called does not show in its state, since a read may leave it as it is. So a
call is also run on the same device behind a recorder, which notes every write and every read.
-/

set_option autoImplicit false

namespace TrustedModule

/-! ## Recording devices -/

/-- One call of a device. -/
inductive Touch
  | write (bytes : Bytes)
  | read (limit : Nat)
  deriving DecidableEq, Repr

/-- A device with a record of how it was called. -/
structure Recorder (σ : Type) where
  device : σ
  touches : List Touch := []
  deriving DecidableEq, Repr

instance {σ : Type} [Device σ] : Device (Recorder σ) where
  write bytes recorder :=
    (Device.write bytes recorder.device).map fun (written, device) =>
      (written, ⟨device, recorder.touches ++ [.write bytes]⟩)
  read limit recorder :=
    let (answer, device) := Device.read limit recorder.device
    (answer, ⟨device, recorder.touches ++ [.read limit]⟩)

section Recording

variable {σ : Type} [Device σ] {device next : σ}

theorem Recorder.write_of {bytes : Bytes} {written : Except String Nat}
    (h : Device.write bytes device = some (written, next)) (touches : List Touch) :
    Device.write bytes (⟨device, touches⟩ : Recorder σ) =
      some (written, ⟨next, touches ++ [.write bytes]⟩) := by
  change (Device.write bytes device).map _ = _
  rw [h]
  rfl

theorem Recorder.read_of {limit : Nat} {answer : Except String Bytes}
    (h : Device.read limit device = (answer, next)) (touches : List Touch) :
    Device.read limit (⟨device, touches⟩ : Recorder σ) =
      (answer, ⟨next, touches ++ [.read limit]⟩) := by
  change ((Device.read limit device).1,
    (⟨(Device.read limit device).2, touches ++ [.read limit]⟩ : Recorder σ)) = _
  rw [h]

end Recording

namespace Client

/-- The client with its device behind a recorder. -/
def recorded {σ : Type} (client : Client σ) (touches : List Touch) : Client (Recorder σ) :=
  ⟨⟨client.device, touches⟩, client.maxResponse⟩

/-- A device is asked for an answer only if it took all of the command. -/
theorem transfer_of_calls {σ : Type} [Device σ] {request : Bytes} {count limit : Nat}
    {answer : Except String Bytes} {device sent after : σ}
    (hwrite : Device.write request device = some (.ok count, sent))
    (hread : Device.read limit sent = (answer, after)) (hlimit : limit < bufferLimit) :
    transfer request ⟨device, limit⟩ =
      some (if count = request.length then (answer.mapError .io, ⟨after, limit⟩)
        else (.error (.shortWrite count request.length), ⟨sent, limit⟩)) := by
  have hsend : send request ⟨device, limit⟩ = some (.ok count, ⟨sent, limit⟩) := by
    simp only [send, hwrite, Option.map_some, Except.mapError]
  have hanswer : readUpTo limit ⟨sent, limit⟩ =
      some (answer.mapError .io, ⟨after, limit⟩) := by
    simp only [readUpTo, if_pos hlimit, hread]
  have hget : (get : Exchange σ (Client σ)) ⟨sent, limit⟩ =
      some (.ok ⟨sent, limit⟩, ⟨sent, limit⟩) := rfl
  rw [transfer, bind_of_ok hsend]
  split
  · rw [bind_of_ok hget]
    exact hanswer
  · rfl

end Client

/-! ## Calls of a client -/

/-- A call of a client: the engine with the caller's targets, or one of the handlers. -/
inductive Invocation
  | submit (tag : UInt16) (ordinal : UInt32) (input : List Field) (kinds : List FieldKind)
      (targets : FieldKind.Values kinds)
  | oiap
  | osap (command : OsapCommand)
  | startOiap (usageAuth : Digest)
  | startOsap (command : OsapCommand) (entityAuth : Digest)
  | authorized (call : Call) (blocks : List CommandAuth)
      (hcount : blocks.length = call.command.authCount)
  | flushSpecific (handle resource : UInt32)
  | pcrRead (index : UInt32)

namespace Invocation

/-- What the call gives back; the engine leaves its result in the targets. -/
abbrev Outcome : Invocation → Type
  | submit _ _ _ kinds _ => Received kinds
  | oiap => Except Error OiapResponse
  | osap _ => Except Error OsapResponse
  | startOiap _ | startOsap _ _ => Except Error Session
  | authorized call _ _ => Except Error call.Result
  | flushSpecific _ _ => Except Error Unit
  | pcrRead _ => Except Error Digest

def perform {σ : Type} [Device σ] :
    (call : Invocation) → Client σ → Option (call.Outcome × Client σ)
  | submit tag ordinal input kinds targets => Client.submitInto tag ordinal input kinds targets
  | oiap => Client.oiap
  | osap command => Client.osap command
  | startOiap usageAuth => Client.startOiap usageAuth
  | startOsap command entityAuth => Client.startOsap command entityAuth
  | authorized call blocks _ => call.perform blocks
  | flushSpecific handle resource => Client.flushSpecific handle resource
  | pcrRead index => Client.pcrRead index

/-! What the call sends. -/

def tag : Invocation → UInt16
  | submit tag .. => tag
  | authorized call _ _ => call.command.tag
  | _ => Tag.request

def ordinal : Invocation → UInt32
  | submit _ ordinal .. => ordinal
  | oiap | startOiap _ => Ordinal.oiap
  | osap _ | startOsap _ _ => Ordinal.osap
  | authorized call _ _ => call.command.ordinal
  | flushSpecific _ _ => Ordinal.flushSpecific
  | pcrRead _ => Ordinal.pcrRead

def input : Invocation → List Field
  | submit _ _ input .. => input
  | oiap | startOiap _ => []
  | osap command | startOsap command _ => [.ofWire command]
  | authorized call blocks _ => .u32 call.keyHandle :: call.params ++ blocks.map .ofWire
  | flushSpecific handle resource => [.u32 handle, .u32 resource]
  | pcrRead index => [.u32 index]

def request (call : Invocation) : Except Error Bytes :=
  CommandHeader.frame call.tag call.ordinal call.input

/-- What the call makes of an answer, or of an exchange that failed. -/
def settle : (call : Invocation) → Except Error Bytes → Option call.Outcome
  | submit tag _ _ kinds targets, answer =>
    match answer with
    | .error error => some ⟨targets, .error error⟩
    | .ok bytes => receive tag kinds targets bytes
  | oiap, answer =>
    Client.judge Tag.request [.ofWire OiapResponse] (Wire.toValue (default : OiapResponse), ())
      (fun (_, response, ()) => .ok (Wire.ofValue response)) answer
  | osap _, answer =>
    Client.judge Tag.request [.ofWire OsapResponse] (Wire.toValue (default : OsapResponse), ())
      (fun (_, response, ()) => .ok (Wire.ofValue response)) answer
  | startOiap usageAuth, answer =>
    Client.judge Tag.request [.ofWire OiapResponse] (Wire.toValue (default : OiapResponse), ())
      (fun (_, response, ()) => .ok (.ofOiap (Wire.ofValue response) usageAuth)) answer
  | startOsap command entityAuth, answer =>
    Client.judge Tag.request [.ofWire OsapResponse] (Wire.toValue (default : OsapResponse), ())
      (fun (_, response, ()) => .ok (.ofOsap command (Wire.ofValue response) entityAuth)) answer
  | authorized call _ _, answer => call.judge answer
  | flushSpecific _ _, answer => Client.judge Tag.request [] () (fun (_, ()) => .ok ()) answer
  | pcrRead _, answer =>
    Client.judge Tag.request [.plain (.block 20)] (.zero 20, ()) (fun (_, value, ()) => .ok value)
      answer

/-- Every call makes something of whatever it reads. -/
theorem exists_settle (call : Invocation) (answer : Except Error Bytes) :
    ∃ outcome, call.settle answer = some outcome := by
  cases call with
  | submit tag ordinal input kinds targets =>
    cases answer with
    | error error => exact ⟨_, rfl⟩
    | ok bytes =>
      obtain ⟨received, hreceive, _⟩ := judged_receive tag kinds targets bytes
      exact ⟨received, hreceive⟩
  | authorized | oiap | osap | startOiap | startOsap | flushSpecific | pcrRead =>
    exact Client.exists_judge _ _ _ answer

section Performing

variable {σ : Type} [Device σ]

/-- Opening a session is a handshake whose response is turned into the session. -/
theorem startOiap_eq (usageAuth : Digest) :
    Client.startOiap (σ := σ) usageAuth =
      Client.submit Tag.request Ordinal.oiap [] [.ofWire OiapResponse]
          (Wire.toValue (default : OiapResponse), ()) >>= fun (_, response, ()) =>
        ofExcept (.ok (Session.ofOiap (Wire.ofValue response) usageAuth)) := by
  simp only [Client.startOiap, Client.oiap, bind_assoc, pure_bind]
  rfl

theorem startOsap_eq (command : OsapCommand) (entityAuth : Digest) :
    Client.startOsap (σ := σ) command entityAuth =
      Client.submit Tag.request Ordinal.osap [.ofWire command] [.ofWire OsapResponse]
          (Wire.toValue (default : OsapResponse), ()) >>= fun (_, response, ()) =>
        ofExcept (.ok (Session.ofOsap command (Wire.ofValue response) entityAuth)) := by
  simp only [Client.startOsap, Client.osap, bind_assoc, pure_bind]
  rfl

/-- A call whose command has no encoding does not reach the device. -/
theorem perform_of_error {call : Invocation} {error : Error} (h : call.request = .error error)
    (client : Client σ) :
    call.perform client = (call.settle (.error error)).map (·, client) := by
  cases call with
  | submit tag ordinal input kinds targets =>
    have hframe : CommandHeader.frame tag ordinal input = .error error := h
    simp only [perform, Client.submitInto, hframe]
    rfl
  | authorized call blocks hcount =>
    exact (congrFun (Call.perform_eq hcount) client).trans
      (Client.bind_of_error (Client.submit_of_frame_error h client))
  | oiap | osap | flushSpecific | pcrRead =>
    exact Client.bind_of_error (Client.submit_of_frame_error h client)
  | startOiap | startOsap =>
    exact Client.bind_of_error (Client.bind_of_error (Client.submit_of_frame_error h client))

/-- Any other call is one exchange, and a judgement on what came of it. -/
theorem perform_of_request {call : Invocation} {request : Bytes} (h : call.request = .ok request)
    (client : Client σ) :
    call.perform client = (Client.transfer request client).bind fun (answer, after) =>
      (call.settle answer).map (·, after) := by
  cases call with
  | submit tag ordinal input kinds targets =>
    refine (Client.submitInto_of_frame h client).trans ?_
    refine congrArg (Option.bind _) (funext fun (answer, after) => ?_)
    cases answer <;> rfl
  | authorized call blocks hcount => exact Call.perform_of_request hcount h client
  | startOiap usageAuth => exact Client.judge_of_request (startOiap_eq usageAuth) h client
  | startOsap command entityAuth =>
    exact Client.judge_of_request (startOsap_eq command entityAuth) h client
  | oiap | osap | flushSpecific | pcrRead =>
    refine Client.judge_of_request ?_ h client
    rfl

end Performing

end Invocation

/-! ## Exchanges with a playback device -/

namespace PlaybackDevice

/-- The bytes that the device takes from a write. -/
def front (device : PlaybackDevice) (request : Bytes) : Bytes :=
  device.acceptLimit.elim request request.take

/-- The device after it took from a write what it takes. -/
def logging (device : PlaybackDevice) (request : Bytes) : PlaybackDevice :=
  { device with writes := device.writes ++ [device.front request] }

/-- What a read of `limit` bytes gives of the next response. -/
def heard (limit : Nat) (response? : Option Bytes) : Except String Bytes :=
  response?.elim (.error "no scripted response") fun response => .ok (response.take limit)

/-- The device after the next response was read. -/
def popped (device : PlaybackDevice) : PlaybackDevice :=
  { device with responses := device.responses.tail }

theorem write_eq (device : PlaybackDevice) (request : Bytes) :
    Device.write request device =
      some (.ok (device.front request).length, device.logging request) := by
  obtain ⟨responses, writes, _ | limit⟩ := device <;> rfl

theorem length_front_le (device : PlaybackDevice) (request : Bytes) :
    (device.front request).length ≤ request.length := by
  unfold front
  cases device.acceptLimit with
  | none => exact Nat.le_refl _
  | some accepted => exact List.length_take_le' _ _

/-- A write is taken whole if it is no longer than the limit. -/
theorem length_front_eq_iff {device : PlaybackDevice} {request : Bytes} :
    (device.front request).length = request.length ↔
      device.acceptLimit.all (request.length ≤ ·) = true := by
  unfold front
  cases device.acceptLimit with
  | none => simp
  | some accepted =>
    simp only [Option.elim_some, List.length_take, Option.all_some, decide_eq_true_eq]
    omega

theorem read_eq (limit : Nat) (device : PlaybackDevice) :
    Device.read limit device = (heard limit device.responses.head?, device.popped) := by
  obtain ⟨_ | ⟨response, rest⟩, writes, acceptLimit⟩ := device <;> rfl

theorem transfer_eq (device : PlaybackDevice) (request : Bytes) {limit : Nat}
    (hlimit : limit < bufferLimit) :
    Client.transfer request ⟨device, limit⟩ =
      some (if (device.front request).length = request.length then
          ((heard limit device.responses.head?).mapError .io,
            ⟨(device.logging request).popped, limit⟩)
        else (.error (.shortWrite (device.front request).length request.length),
          ⟨device.logging request, limit⟩)) :=
  Client.transfer_of_calls (write_eq device request) (read_eq limit _) hlimit

/-- The recorder sees one write, and one read behind it if the write was taken whole. -/
theorem transfer_recorded (device : PlaybackDevice) (request : Bytes) {limit : Nat}
    (hlimit : limit < bufferLimit) :
    Client.transfer request ((⟨device, limit⟩ : Client PlaybackDevice).recorded []) =
      some (if (device.front request).length = request.length then
          ((heard limit device.responses.head?).mapError .io,
            (⟨(device.logging request).popped, limit⟩ : Client PlaybackDevice).recorded
              [.write request, .read limit])
        else (.error (.shortWrite (device.front request).length request.length),
          (⟨device.logging request, limit⟩ : Client PlaybackDevice).recorded
            [.write request])) :=
  Client.transfer_of_calls (Recorder.write_of (write_eq device request) [])
    (Recorder.read_of (read_eq limit _) _) hlimit

end PlaybackDevice

namespace Invocation

/-- The command of the call, as the device is offered it. -/
def LaidOut (call : Invocation) (request : Bytes) : Prop :=
  ∃ params, Field.encode call.input = .ok params ∧
    request = bigEndian 2 call.tag.toNat ++ bigEndian 4 request.length ++
      bigEndian 4 call.ordinal.toNat ++ params

theorem laidOut_of_request {call : Invocation} {request : Bytes} (h : call.request = .ok request) :
    call.LaidOut request := by
  rw [Invocation.request, CommandHeader.frame_eq] at h
  obtain ⟨params, hparams, h⟩ := bind_eq_ok.mp h
  split at h
  · cases h
    refine ⟨params, hparams, ?_⟩
    rw [CommandHeader.length_message, CommandHeader.message]
  · cases h

/-- What a call comes to on a playback device: what it returns, how it leaves the device, and how
often it called it. A response that is there goes to a call whose command was taken whole. -/
inductive Paired (call : Invocation) (limit : Nat) (response? : Option Bytes)
    (before : PlaybackDevice) : call.Outcome → PlaybackDevice → List Touch → Prop
  | unsent {error : Error} {outcome : call.Outcome} (hrequest : call.request = .error error)
      (hsettle : call.settle (.error error) = some outcome) :
      Paired call limit response? before outcome before []
  | cut {request : Bytes} {outcome : call.Outcome} (hrequest : call.request = .ok request)
      (hlaid : call.LaidOut request) (hshort : (before.front request).length < request.length)
      (hsettle : call.settle (.error (.shortWrite (before.front request).length request.length)) =
        some outcome) :
      Paired call limit response? before outcome (before.logging request) [.write request]
  | exchanged {request : Bytes} {outcome : call.Outcome} (hrequest : call.request = .ok request)
      (hlaid : call.LaidOut request)
      (hwhole : (before.front request).length = request.length)
      (hsettle : call.settle ((PlaybackDevice.heard limit response?).mapError .io) =
        some outcome) :
      Paired call limit response? before outcome (before.logging request).popped
        [.write request, .read limit]

/-- A device with this limit takes the whole command of the call. -/
def taken (acceptLimit : Option Nat) (call : Invocation) : Bool :=
  match call.request with
  | .error _ => false
  | .ok request => acceptLimit.all (request.length ≤ ·)

/-- One call, on the device as it is and behind a recorder. -/
theorem exists_paired (call : Invocation) (device : PlaybackDevice) {limit : Nat}
    (hlimit : limit < bufferLimit) :
    ∃ outcome after touches, call.perform ⟨device, limit⟩ = some (outcome, ⟨after, limit⟩) ∧
      call.perform ((⟨device, limit⟩ : Client PlaybackDevice).recorded []) =
        some (outcome, (⟨after, limit⟩ : Client PlaybackDevice).recorded touches) ∧
      call.Paired limit device.responses.head? device outcome after touches ∧
      after.acceptLimit = device.acceptLimit ∧
      after.responses =
        if call.taken device.acceptLimit then device.responses.tail else device.responses := by
  cases hrequest : call.request with
  | error error =>
    have htaken : call.taken device.acceptLimit = false := by simp only [taken, hrequest]
    obtain ⟨outcome, hsettle⟩ := call.exists_settle (.error error)
    rw [htaken, perform_of_error hrequest, perform_of_error hrequest, hsettle]
    exact ⟨outcome, device, [], rfl, rfl, .unsent hrequest hsettle, rfl, rfl⟩
  | ok request =>
    have hlaid := laidOut_of_request hrequest
    have hplain := perform_of_request hrequest ⟨device, limit⟩
    have hrecorded := perform_of_request hrequest
      ((⟨device, limit⟩ : Client PlaybackDevice).recorded [])
    have htaken : call.taken device.acceptLimit = device.acceptLimit.all (request.length ≤ ·) := by
      simp only [taken, hrequest]
    rw [device.transfer_eq request hlimit] at hplain
    rw [device.transfer_recorded request hlimit] at hrecorded
    by_cases hwhole : (device.front request).length = request.length
    · obtain ⟨outcome, hsettle⟩ := call.exists_settle
        ((PlaybackDevice.heard limit device.responses.head?).mapError .io)
      simp only [if_pos hwhole, Option.bind_some, hsettle] at hplain hrecorded
      rw [htaken, PlaybackDevice.length_front_eq_iff.mp hwhole]
      exact ⟨outcome, _, _, hplain, hrecorded, .exchanged hrequest hlaid hwhole hsettle, rfl, rfl⟩
    · obtain ⟨outcome, hsettle⟩ := call.exists_settle
        (.error (.shortWrite (device.front request).length request.length))
      have hshort := Nat.lt_of_le_of_ne (device.length_front_le request) hwhole
      have hnot := mt PlaybackDevice.length_front_eq_iff.mpr hwhole
      simp only [if_neg hwhole, Option.bind_some, hsettle] at hplain hrecorded
      rw [htaken, if_neg hnot]
      exact ⟨outcome, _, _, hplain, hrecorded, .cut hrequest hlaid hshort hsettle, rfl, rfl⟩

end Invocation

/-! ## Any number of calls -/

namespace PlaybackDevice

/-- What is done with a client of a playback device: the most that the device takes of a write is
changed, or the device is called. -/
inductive Action
  | accept (acceptLimit : Option Nat)
  | call (call : Invocation)

/-- The client after some actions; `none` if a call has no outcome. -/
def run : List Action → Client PlaybackDevice → Option (Client PlaybackDevice)
  | [], client => some client
  | .accept acceptLimit :: actions, client =>
    run actions { client with device := { client.device with acceptLimit } }
  | .call call :: actions, client => (call.perform client).bind fun (_, after) => run actions after

/-- The limit on writes after some actions. -/
def limitAfter : Option Nat → List Action → Option Nat
  | acceptLimit, [] => acceptLimit
  | _, .accept acceptLimit :: actions => limitAfter acceptLimit actions
  | acceptLimit, .call _ :: actions => limitAfter acceptLimit actions

/-- How many of the calls have a command that the device takes whole. -/
def countTaken : Option Nat → List Action → Nat
  | _, [] => 0
  | _, .accept acceptLimit :: actions => countTaken acceptLimit actions
  | acceptLimit, .call call :: actions =>
    (call.taken acceptLimit).toNat + countTaken acceptLimit actions

/-- Every run comes to an end, and has used up one response for each command that was taken
whole. -/
theorem run_responses (device : PlaybackDevice) {limit : Nat} (hlimit : limit < bufferLimit)
    (actions : List Action) :
    ∃ after : PlaybackDevice, run actions ⟨device, limit⟩ = some ⟨after, limit⟩ ∧
      after.acceptLimit = limitAfter device.acceptLimit actions ∧
      after.responses = device.responses.drop (countTaken device.acceptLimit actions) := by
  induction actions generalizing device with
  | nil => exact ⟨device, rfl, rfl, rfl⟩
  | cons action actions ih =>
    cases action with
    | accept acceptLimit => exact ih { device with acceptLimit }
    | call call =>
      obtain ⟨outcome, next, _, hperform, _, _, hsame, hresponses⟩ :=
        call.exists_paired device hlimit
      obtain ⟨after, hrun, hafter, hleft⟩ := ih next
      rw [hsame] at hafter hleft
      refine ⟨after, ?_, hafter, ?_⟩
      · rw [run, hperform]
        exact hrun
      · rw [hleft, hresponses, countTaken]
        cases call.taken device.acceptLimit
        · simp
        · simp [List.drop_tail, Nat.add_comm]

/-- Whatever a client did before on a playback device, its next call offers its command once, reads
once if the device takes all of it, and is then given the response whose place in the script is the
number of the commands that were taken whole before. -/
theorem calls_paired_in_order (device : PlaybackDevice) {limit : Nat} (hlimit : limit < bufferLimit)
    (earlier : List Action) (call : Invocation) :
    ∃ before outcome after touches, run earlier ⟨device, limit⟩ = some ⟨before, limit⟩ ∧
      before.acceptLimit = limitAfter device.acceptLimit earlier ∧
      before.responses = device.responses.drop (countTaken device.acceptLimit earlier) ∧
      call.perform ⟨before, limit⟩ = some (outcome, ⟨after, limit⟩) ∧
      call.perform ((⟨before, limit⟩ : Client PlaybackDevice).recorded []) =
        some (outcome, (⟨after, limit⟩ : Client PlaybackDevice).recorded touches) ∧
      call.Paired limit device.responses[countTaken device.acceptLimit earlier]? before outcome
        after touches := by
  obtain ⟨before, hrun, haccept, hresponses⟩ := run_responses device hlimit earlier
  obtain ⟨outcome, after, touches, hperform, hrecorded, hpaired, _⟩ :=
    call.exists_paired before hlimit
  rw [hresponses, List.head?_drop] at hpaired
  exact ⟨before, outcome, after, touches, hrun, haccept, hresponses, hperform, hrecorded, hpaired⟩

/-- A refusal of the first command, and the value of a register for the second. -/
def twoAnswers : PlaybackDevice :=
  { responses := [[0, 0xC4, 0, 0, 0, 10, 0, 0, 0, 1],
      [0, 0xC4, 0, 0, 0, 30, 0, 0, 0, 0] ++ List.replicate 20 7] }

/-- The refused command used up its answer, and one that was cut did not use up any. -/
theorem calls_paired_in_order_twoAnswers :
    ∃ before outcome after,
      run [.call .oiap, .accept (some 3), .call .oiap, .accept none] ⟨twoAnswers, 4096⟩ =
        some ⟨before, 4096⟩ ∧
      (Invocation.pcrRead 0).perform ⟨before, 4096⟩ = some (outcome, ⟨after, 4096⟩) ∧
      outcome = .ok ⟨List.replicate 20 7, rfl⟩ := by
  obtain ⟨before, outcome, after, touches, hrun, haccept, _, hperform, _, hpaired⟩ :=
    calls_paired_in_order twoAnswers (by decide : 4096 < bufferLimit)
      [.call .oiap, .accept (some 3), .call .oiap, .accept none] (.pcrRead 0)
  refine ⟨before, outcome, after, hrun, hperform, ?_⟩
  have hlimit : before.acceptLimit = none := haccept
  cases hpaired with
  | unsent hrequest _ => cases hrequest
  | cut _ _ hshort _ =>
    rw [front, hlimit] at hshort
    exact absurd hshort (Nat.lt_irrefl _)
  | exchanged _ _ _ hsettle => exact (Option.some.inj hsettle).symm

/-- A limit on answers can be more than any buffer holds; then a command is written and taken whole,
but there is no read and the call has no outcome. -/
theorem calls_beyond_buffers :
    ∃ request, Invocation.oiap.request = .ok request ∧
      Client.send request ⟨twoAnswers, bufferLimit⟩ =
        some (.ok request.length, ⟨twoAnswers.logging request, bufferLimit⟩) ∧
      Invocation.oiap.perform ⟨twoAnswers, bufferLimit⟩ = none :=
  ⟨_, rfl, rfl, rfl⟩

end PlaybackDevice

end TrustedModule
