import TrustedModule.Authorization.Session
import TrustedModule.Client.Commands
import TrustedModule.Proofs.Exchange.Authorized

/-!
# Calls of the five authorized commands

A call is one of the handlers with its arguments. All five handlers have one form: they submit a
command, and make a result of the fields of its answer. The caller authorizes the parameter list
that goes with the call, hands the blocks to the handler, and checks the response over the output
list that goes with the result. If the answer fits, either the sessions on the device are as they
were, or the handler returns what the device answered to each block, and the output list that the
device authenticated.
-/

set_option autoImplicit false

namespace TrustedModule

inductive Call where
  | sealData (command : SealCommand) (pcrInfo : Option PcrInfoLong) (data : Bytes)
  | unsealData (keyHandle : Handle) (stored : StoredData)
  | loadKey2 (key : Key)
  | getPubKey (keyHandle : Handle)
  | quote2 (keyHandle : Handle) (externalData : Digest) (selection : PcrSelection)
      (addVersion : Bool)
  deriving DecidableEq, Repr

/-- What a caller checks the response with. -/
structure Reply where
  outParams : Except Error (List Field)
  responses : List ResponseAuth

namespace Call

def command : Call → AuthorizedCommand
  | sealData .. => .sealData
  | unsealData .. => .unsealData
  | loadKey2 .. => .loadKey2
  | getPubKey .. => .getPubKey
  | quote2 .. => .quote2

def keyHandle : Call → Handle
  | sealData command .. => command.keyHandle
  | unsealData keyHandle .. => keyHandle
  | loadKey2 .. => Handle.storageRootKey
  | getPubKey keyHandle => keyHandle
  | quote2 keyHandle .. => keyHandle

/-- The parameters that the caller authorizes; GetPubKey has none. -/
def params : Call → List Field
  | sealData command pcrInfo data => Parameters.sealData command pcrInfo data
  | unsealData _ stored => Parameters.unsealData stored
  | loadKey2 key => Parameters.loadKey2 key
  | getPubKey _ => []
  | quote2 _ externalData selection addVersion =>
    Parameters.quote2 externalData selection addVersion

/-- The bytes that the handler writes to the device. -/
def request (call : Call) (blocks : List CommandAuth) : Except Error Bytes :=
  CommandHeader.frame call.command.tag call.command.ordinal
    (.u32 call.keyHandle :: call.params ++ blocks.map .ofWire)

/-! ## Handlers -/

/-- What the handler returns. -/
abbrev Result : Call → Type
  | sealData .. => SealResult
  | unsealData .. => UnsealResult
  | loadKey2 .. => LoadKeyResult
  | getPubKey .. => PubKeyResult
  | quote2 .. => Quote

/-- Runs the handler with the blocks. There is no handler for another number of blocks. -/
def perform {σ : Type} [Device σ] :
    (call : Call) → List CommandAuth → Exchange σ call.Result
  | sealData command pcrInfo data, [auth] => Client.sealData command pcrInfo data auth
  | unsealData keyHandle stored, [keyAuth, dataAuth] =>
    Client.unsealData keyHandle stored keyAuth dataAuth
  | loadKey2 key, [auth] => Client.loadKey2 key auth
  | getPubKey keyHandle, [auth] => Client.getPubKey keyHandle auth
  | quote2 keyHandle externalData selection addVersion, [auth] =>
    Client.quote2 keyHandle externalData selection addVersion auth
  | _, _ => fun _ => none

/-- The fields that the handler reads from the answer. -/
def kinds : Call → List FieldKind
  | sealData .. => [.ofWire StoredData, .ofWire ResponseAuth]
  | unsealData .. => [.plain .u32, .remainder, .ofWire ResponseAuth, .ofWire ResponseAuth]
  | loadKey2 .. => [.plain .u32, .ofWire ResponseAuth]
  | getPubKey .. => [.ofWire PubKey, .ofWire ResponseAuth]
  | quote2 .. => [.ofWire PcrInfoShort, .sized, .sized, .ofWire ResponseAuth]

/-- What the handler has in the place of a field until it is read. -/
def initial : (call : Call) → FieldKind.Values call.kinds
  | sealData .. =>
    (Wire.toValue (default : StoredData), Wire.toValue (default : ResponseAuth), ())
  | unsealData .. =>
    (0, [], Wire.toValue (default : ResponseAuth), Wire.toValue (default : ResponseAuth), ())
  | loadKey2 .. => (0, Wire.toValue (default : ResponseAuth), ())
  | getPubKey .. => (Wire.toValue (default : PubKey), Wire.toValue (default : ResponseAuth), ())
  | quote2 .. =>
    (Wire.toValue (default : PcrInfoShort), [], [], Wire.toValue (default : ResponseAuth), ())

/-- What the handler makes of the fields. -/
def finish : (call : Call) → FieldKind.Values call.kinds → Except Error call.Result
  | sealData .., (stored, responseAuth, ()) =>
    .ok ⟨Wire.ofValue stored, Wire.ofValue responseAuth⟩
  | unsealData .., (size, secret, keyResponse, dataResponse, ()) =>
    if size.toNat = secret.length then
      .ok ⟨secret, Wire.ofValue keyResponse, Wire.ofValue dataResponse⟩
    else
      .error (.layout (.secretLength size secret.length))
  | loadKey2 .., (handle, responseAuth, ()) => .ok ⟨handle, Wire.ofValue responseAuth⟩
  | getPubKey .., (pubKey, responseAuth, ()) =>
    .ok ⟨Wire.ofValue pubKey, Wire.ofValue responseAuth⟩
  | quote2 .., (pcrInfo, capBytes, signature, responseAuth, ()) =>
    (CapVersionInfo.decode capBytes).map fun capInfo =>
      { pcrInfo := Wire.ofValue pcrInfo, capInfo, capBytes, signature,
        responseAuth := Wire.ofValue responseAuth }

/-- What the caller checks the response with: the output list, and the blocks. -/
def reply : (call : Call) → call.Result → Reply
  | sealData .., result => ⟨.ok [.ofWire result.stored], [result.responseAuth]⟩
  | unsealData .., result =>
    ⟨Parameters.unsealDataOut result.secret, [result.keyResponse, result.dataResponse]⟩
  | loadKey2 .., result => ⟨.ok [], [result.responseAuth]⟩
  | getPubKey .., result => ⟨.ok [.ofWire result.pubKey], [result.responseAuth]⟩
  | quote2 .., quote => ⟨.ok (Parameters.quote2Out quote), [quote.responseAuth]⟩

/-- Runs the handler with the blocks, and gives what the response is checked with. -/
def send {σ : Type} [Device σ] (call : Call) (blocks : List CommandAuth) : Exchange σ Reply := do
  return call.reply (← call.perform blocks)

/-- The client has room for what the simulator answers to the handler's command. -/
def Fits (call : Call) (blocks : List CommandAuth) (sim : Simulator) (limit : Nat) : Prop :=
  ∀ request answer next, call.request blocks = .ok request →
    sim.execute request = some (answer, next) → answer.length ≤ limit

/-- The simulator answered the blocks over the output list of the reply. -/
def Answered (call : Call) (blocks : List CommandAuth) (before after : Simulator) (reply : Reply) :
    Prop :=
  ∃ fields params middle next, reply.outParams = .ok fields ∧ Field.encode fields = .ok params ∧
    middle.sessions = before.sessions ∧
    Simulator.answerAuths (responseDigest 0 call.command.ordinal params) blocks middle =
      some (reply.responses, next) ∧
    after.sessions = next.sessions

/-- A call that fails leaves the sessions alone, and one that gives a reply settles those that its
blocks name. -/
def Concludes (call : Call) (blocks : List CommandAuth) (sim : Simulator)
    (result : Except Error Reply) (after : Client Simulator) : Prop :=
  (∃ error, result = .error error) ∧ after.device.sessions = sim.sessions ∨
    ∃ reply, result = .ok reply ∧ call.Answered blocks sim after.device reply

theorem no_remainder_params (call : Call) :
    ∀ field ∈ call.params, field.kind.policy ≠ .remainder := by
  cases call with
  | sealData command pcrInfo data =>
    cases pcrInfo <;>
      simp [params, Parameters.sealData, Field.array, Field.sized, Field.u32, Field.sizedOfWire,
        FieldKind.policy]
  | unsealData keyHandle stored =>
    simp [params, Parameters.unsealData, Field.ofWire, FieldKind.policy]
  | loadKey2 key => simp [params, Parameters.loadKey2, Field.ofWire, FieldKind.policy]
  | getPubKey keyHandle => simp [params]
  | quote2 keyHandle externalData selection addVersion =>
    simp [params, Parameters.quote2, Field.array, Field.ofWire, Field.flag, FieldKind.policy]

section Performing

variable {σ : Type} [Device σ] {call : Call} {blocks : List CommandAuth}

/-- The five handlers have one form. -/
theorem perform_eq (hcount : blocks.length = call.command.authCount) :
    call.perform (σ := σ) blocks =
      Client.submit call.command.tag call.command.ordinal
          (.u32 call.keyHandle :: call.params ++ blocks.map .ofWire) call.kinds call.initial >>=
        fun (_, values) => ofExcept (call.finish values) := by
  cases call with
  | sealData command pcrInfo data =>
    obtain ⟨auth, rfl⟩ := List.length_eq_one_iff.mp hcount
    rfl
  | unsealData keyHandle stored =>
    obtain ⟨keyAuth, dataAuth, rfl⟩ := List.length_eq_two.mp hcount
    refine congrArg (Client.submit _ _ _ _ _ >>= ·) (funext fun values => ?_)
    obtain ⟨_, size, secret, keyResponse, dataResponse, _⟩ := values
    dsimp only [finish]
    split <;> rfl
  | loadKey2 key =>
    obtain ⟨auth, rfl⟩ := List.length_eq_one_iff.mp hcount
    rfl
  | getPubKey keyHandle =>
    obtain ⟨auth, rfl⟩ := List.length_eq_one_iff.mp hcount
    rfl
  | quote2 keyHandle externalData selection addVersion =>
    obtain ⟨auth, rfl⟩ := List.length_eq_one_iff.mp hcount
    refine congrArg (Client.submit _ _ _ _ _ >>= ·) (funext fun values => ?_)
    obtain ⟨_, pcrInfo, capBytes, signature, responseAuth, _⟩ := values
    dsimp only [finish]
    cases CapVersionInfo.decode capBytes <;> rfl

theorem length_of_perform {client : Client σ} {outcome : Except Error call.Result × Client σ}
    (h : call.perform blocks client = some outcome) : blocks.length = call.command.authCount := by
  unfold perform at h
  split at h
  · rfl
  · rfl
  · rfl
  · rfl
  · rfl
  · cases h

theorem send_eq (call : Call) (blocks : List CommandAuth) (client : Client σ) :
    call.send blocks client = (call.perform blocks client).map fun (result, after) =>
      (result.map call.reply, after) := by
  cases hperform : call.perform blocks client with
  | none => exact Client.bind_of_none hperform
  | some performed =>
    obtain ⟨result, after⟩ := performed
    cases result with
    | error error => exact Client.bind_of_error hperform
    | ok result => exact Client.bind_of_ok hperform

end Performing

/-! ## What the simulator gives out -/

/-- A body whose outputs are the encoding of some fields is the encoding of these fields and the
answers. -/
theorem encode_body {fields : List Field} {bytes : Bytes}
    (hfields : ∀ field ∈ fields, field.kind.policy ≠ .remainder)
    (h : Field.encode fields = .ok bytes) (answers : List ResponseAuth) :
    Field.encode (fields ++ answers.map .ofWire) =
      .ok (bytes ++ answers.flatMap ResponseAuth.encoding) := by
  rw [Field.encode_append_structures hfields ResponseAuth.encode_eq, h]
  rfl

/-- The client reads the secret as the remainder between its length and the two answers. -/
theorem encode_unsealed (secret : Bytes) (keyAnswer dataAnswer : ResponseAuth) :
    Field.encode [.u32 (UInt32.ofNat secret.length), .remainder secret, .ofWire keyAnswer,
        .ofWire dataAnswer] =
      .ok (bigEndian 4 secret.length ++ secret ++
        [keyAnswer, dataAnswer].flatMap ResponseAuth.encoding) := by
  have hanswers := Field.encodeEach_structures ResponseAuth.encode_eq [keyAnswer, dataAnswer]
  refine Field.encode_eq_ok.mpr ⟨rfl, append_eq_ok.mpr ⟨bigEndian 4 secret.length, _, ?_,
    append_eq_ok.mpr ⟨secret, _, rfl, hanswers, rfl⟩, List.append_assoc ..⟩⟩
  exact congrArg Except.ok (bigEndian_ofNat secret.length)

theorem fill_unsealed (secret : Bytes) (keyAnswer dataAnswer : ResponseAuth) :
    (FieldKind.fillAll [.plain .u32, .remainder, .ofWire ResponseAuth, .ofWire ResponseAuth]
      (0, [], Wire.toValue (default : ResponseAuth), Wire.toValue (default : ResponseAuth), ())
      (Buffer.ofBytes (bigEndian 4 secret.length ++ secret ++
        [keyAnswer, dataAnswer].flatMap ResponseAuth.encoding))).toExcept =
      .ok (UInt32.ofNat secret.length, secret, Wire.toValue keyAnswer, Wire.toValue dataAnswer,
        ()) :=
  Field.toExcept_fillAll (encode_unsealed secret keyAnswer dataAnswer) _

theorem encode_unsealDataOut (secret : Bytes) :
    Field.encode [.u32 (UInt32.ofNat secret.length), .array secret] =
      .ok (bigEndian 4 secret.length ++ secret) := by
  refine Field.encode_eq_ok.mpr ⟨rfl, append_eq_ok.mpr ⟨bigEndian 4 secret.length, secret, ?_,
    append_eq_ok.mpr ⟨secret, [], rfl, rfl, (List.append_nil _).symm⟩, rfl⟩⟩
  exact congrArg Except.ok (bigEndian_ofNat secret.length)

/-- The version blob of the simulator can be split. -/
theorem exists_capInfo {capBytes : Bytes}
    (h : capBytes = [] ∨ Simulator.versionBlob = .ok capBytes) :
    ∃ capInfo, CapVersionInfo.decode capBytes = .ok capInfo := by
  obtain rfl | hblob := h
  · exact ⟨none, rfl⟩
  · have hsplit : (Simulator.versionBlob.bind CapVersionInfo.decode).toOption.isSome = true := by
      decide +kernel
    rw [hblob] at hsplit
    cases hdecode : CapVersionInfo.decode capBytes with
    | ok capInfo => exact ⟨capInfo, rfl⟩
    | error error =>
      simp only [Except.bind, hdecode] at hsplit
      cases hsplit

/-- A handler makes a result of whatever body the simulator gives out. Its caller checks the answers
to its blocks over the list that the simulator has authenticated. -/
theorem finish_of_perform {call : Call} {params : Bytes} {output : Simulator.Output}
    {answers : List ResponseAuth} {before next : Simulator}
    (h : before.perform call.command params = some (.ok output, next))
    (hcount : answers.length = call.command.authCount) :
    ∃ values result fields,
      (FieldKind.fillAll call.kinds call.initial (Buffer.ofBytes (output.handles ++
        output.params ++ answers.flatMap ResponseAuth.encoding))).toExcept = .ok values ∧
      call.finish values = .ok result ∧ call.reply result = ⟨.ok fields, answers⟩ ∧
      Field.encode fields = .ok output.params := by
  cases call with
  | sealData command pcrInfo data =>
    obtain ⟨stored, hhandles, hencode, _⟩ := Simulator.perform_sealData h
    obtain ⟨answer, rfl⟩ := List.length_eq_one_iff.mp hcount
    have hbody := encode_body (by simp [Field.ofWire, FieldKind.policy])
      (Field.encode_ofWire hencode) [answer]
    rw [hhandles]
    exact ⟨_, ⟨stored, answer⟩, _, Field.toExcept_fillAll hbody _, rfl, rfl,
      Field.encode_ofWire hencode⟩
  | unsealData keyHandle stored =>
    obtain ⟨secret, hbound, hhandles, hparams, _⟩ := Simulator.perform_unsealData h
    obtain ⟨keyAnswer, dataAnswer, rfl⟩ := List.length_eq_two.mp hcount
    rw [hhandles, hparams]
    exact ⟨_, ⟨secret, keyAnswer, dataAnswer⟩, _, fill_unsealed secret keyAnswer dataAnswer,
      if_pos (UInt32.toNat_ofNat_of_lt' hbound), congrArg (Reply.mk · _) (if_pos hbound),
      encode_unsealDataOut secret⟩
  | loadKey2 key =>
    obtain ⟨handle, hhandles, hparams⟩ := Simulator.perform_loadKey2 h
    obtain ⟨answer, rfl⟩ := List.length_eq_one_iff.mp hcount
    have hbody := @encode_body [.u32 handle] _ (by simp [Field.u32, FieldKind.policy]) rfl [answer]
    rw [hhandles, hparams]
    exact ⟨_, ⟨handle, answer⟩, [], Field.toExcept_fillAll hbody _, rfl, rfl, rfl⟩
  | getPubKey keyHandle =>
    obtain ⟨pubKey, hhandles, hencode, _⟩ := Simulator.perform_getPubKey h
    obtain ⟨answer, rfl⟩ := List.length_eq_one_iff.mp hcount
    have hbody := encode_body (by simp [Field.ofWire, FieldKind.policy])
      (Field.encode_ofWire hencode) [answer]
    rw [hhandles]
    exact ⟨_, ⟨pubKey, answer⟩, _, Field.toExcept_fillAll hbody _, rfl, rfl,
      Field.encode_ofWire hencode⟩
  | quote2 keyHandle externalData selection addVersion =>
    obtain ⟨info, capBytes, hhandles, hencode, hcap, _⟩ := Simulator.perform_quote2 h
    obtain ⟨answer, rfl⟩ := List.length_eq_one_iff.mp hcount
    obtain ⟨capInfo, hdecode⟩ := exists_capInfo hcap
    have hbody := encode_body (by simp [Field.ofWire, Field.sized, FieldKind.policy]) hencode
      [answer]
    rw [hhandles]
    exact ⟨_, ⟨info, capInfo, capBytes, Simulator.quoteSignature, answer⟩, _,
      Field.toExcept_fillAll hbody _, congrArg (Except.map _) hdecode, rfl, hencode⟩

/-- Whatever the handler, the device has answered the blocks or left the sessions alone. -/
theorem answered {call : Call} {blocks : List CommandAuth} {sim : Simulator} {limit : Nat}
    {result : Except Error Reply} {after : Client Simulator} (hfits : call.Fits blocks sim limit)
    (h : call.send blocks ⟨sim, limit⟩ = some (result, after)) :
    call.Concludes blocks sim result after := by
  rw [send_eq] at h
  obtain ⟨⟨performed, client⟩, hperform, heq⟩ := Option.map_eq_some_iff.mp h
  cases heq
  have hcount := length_of_perform hperform
  rw [perform_eq hcount, Client.bind_ofExcept] at hperform
  obtain ⟨⟨submitted, client'⟩, hsubmit, heq⟩ := Option.map_eq_some_iff.mp hperform
  cases heq
  obtain ⟨⟨error, rfl⟩, hsame⟩ | ⟨params, output, middle, answers, next, hrun, hmiddle, hanswer,
      hnext, rfl⟩ := Client.submit_settles call.no_remainder_params hcount hfits hsubmit
  · exact .inl ⟨⟨error, rfl⟩, hsame⟩
  · obtain ⟨values, result, fields, hvalues, hfinish, hreply, hencode⟩ :=
      finish_of_perform hrun ((Simulator.length_answers hanswer).trans hcount)
    refine .inr ⟨call.reply result, ?_, fields, output.params, middle, next, ?_, hencode, hmiddle,
      ?_, hnext⟩
    · simp only [hvalues, Except.map, Except.bind, hfinish]
    · rw [hreply]
    · rw [hreply]
      exact hanswer

end Call

end TrustedModule
