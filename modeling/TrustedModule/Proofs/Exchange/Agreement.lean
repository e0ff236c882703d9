import TrustedModule.Proofs.Exchange.Authorized
import TrustedModule.Proofs.Exchange.Submission
import TrustedModule.Proofs.Simulator.Decoding
import TrustedModule.Proofs.Simulator.Evolution
import TrustedModule.Proofs.Wire.Failures

/-!
# Agreement on frames

The client looks at the tag, the length and the return code of an answer before it believes its
body. Whatever command the simulator gets, and whether it does the command or refuses, the client
finds nothing wrong with the frame of the answer: a header with the true length, and no body behind
the code of a refusal. Since the answer is read once, also where it is cut, none is left over.
-/

set_option autoImplicit false

namespace TrustedModule

/-! ## Numbers in the header of an answer -/

namespace Answer

theorem number_append {front : Bytes} {start width n : Nat} (hfront : front.length = start)
    (hn : n < 256 ^ width) (rest : Bytes) :
    number start width (front ++ bigEndian width n ++ rest) = n := by
  unfold number
  rw [List.append_assoc, List.drop_left' hfront, List.take_left' (length_bigEndian width n),
    ofBigEndian_of_lt hn]

variable (tag : UInt16) (code : ReturnCode) (body : Bytes)

theorem tag_answer : Answer.tag (Simulator.answer tag code body) = tag.toNat := by
  have htag : tag.toNat < 256 ^ 2 := tag.toNat_lt
  have hnumber := number_append (List.length_nil (α := UInt8)) htag
    (bigEndian 4 (headerSize + body.length) ++ bigEndian 4 code.value.toNat ++ body)
  simp only [Answer.tag, Simulator.answer, List.append_assoc] at hnumber ⊢
  exact hnumber

theorem declared_answer (hsize : headerSize + body.length < 0x100000000) :
    declared (Simulator.answer tag code body) = headerSize + body.length := by
  have hlength : headerSize + body.length < 256 ^ 4 := hsize
  have hnumber := number_append (length_bigEndian 2 tag.toNat) hlength
    (bigEndian 4 code.value.toNat ++ body)
  simp only [declared, Simulator.answer, List.append_assoc] at hnumber ⊢
  exact hnumber

theorem returnCode_answer :
    returnCode (Simulator.answer tag code body) = code.value.toNat := by
  have hcode : code.value.toNat < 256 ^ 4 := code.value.toNat_lt
  have hfront : (bigEndian 2 tag.toNat ++ bigEndian 4 (headerSize + body.length)).length = 6 := by
    simp
  exact number_append hfront hcode body

end Answer

open Answer

/-! ## What the simulator answers -/

namespace Simulator

/-- A command that can be taken apart is refused without a body, or done. -/
theorem execute_message_cases {tag : UInt16} {ordinal : UInt32} {payload bytes : Bytes}
    {sim next : Simulator}
    (h : sim.execute (CommandHeader.message tag ordinal payload) = some (bytes, next)) :
    (∃ code, code ≠ .success ∧ bytes = answer (Tag.answering tag) code []) ∨
      ∃ request body, Request.decode tag ordinal payload = some (.ok request) ∧
        (sim.logged ordinal).run request = some (.ok body, next) ∧
        bytes = answer (Tag.answering tag) .success body := by
  obtain ⟨decoded, hdecode⟩ := Request.exists_decode tag ordinal payload
  rw [execute_message, hdecode] at h
  cases decoded with
  | error code =>
    cases h
    exact .inl ⟨code, Request.decode_ne_success hdecode, rfl⟩
  | ok request =>
    obtain ⟨⟨result, final⟩, hrun, heq⟩ := Option.map_eq_some_iff.mp h
    cases result with
    | error code =>
      cases heq
      exact .inl ⟨code, (run_refused hrun).1, rfl⟩
    | ok body =>
      cases heq
      exact .inr ⟨request, body, hdecode, hrun, rfl⟩

/-- The body of an answer is shorter than the payload of its command, or short in any case. -/
theorem length_run {tag : UInt16} {ordinal : UInt32} {payload body : Bytes} {request : Request}
    {sim next : Simulator} (hdecode : Request.decode tag ordinal payload = some (.ok request))
    (hrun : sim.run request = some (.ok body, next)) :
    body.length ≤ max payload.length 70082 := by
  have heffect := run_accepted hrun
  cases heffect with
  | oiap _ | osap _ _ | closeSession _ | unloadKey _ | readRegister _ =>
    simp only [List.length_append, length_bigEndian, Block.length_bytes, List.length_nil]
    omega
  | @authorized _ _ command keyHandle params _ blocks _ _ _ _ =>
    obtain ⟨_, _, hauthorized⟩ := Request.decode_eq_authorized.mp hdecode
    obtain ⟨_, hcount, trailer, rfl, hspell⟩ :=
      Request.decodeAuthorized_eq_ok_iff.mp hauthorized
    have htrailer := CommandAuth.length_of_spell hspell
    have hbody := (length_accepted hrun).2
    have hle := command.authCount_le
    simp only [List.length_append, length_bigEndian, CommandAuth.wireLength,
      ResponseAuth.wireLength] at *
    omega

/-- The answer to a packed command: its code, and a body that has room beside the header. -/
theorem execute_framed {tag : UInt16} {ordinal : UInt32} {input : List Field}
    {request bytes : Bytes} {sim next : Simulator}
    (hframe : CommandHeader.frame tag ordinal input = .ok request)
    (hexecute : sim.execute request = some (bytes, next)) :
    ∃ code body, bytes = answer (Tag.answering tag) code body ∧
      (code ≠ .success → body = []) ∧ headerSize + body.length < 0x100000000 := by
  rw [CommandHeader.frame_eq] at hframe
  obtain ⟨payload, _, hframe⟩ := bind_eq_ok.mp hframe
  split at hframe
  · rename_i hsize
    cases hframe
    rcases execute_message_cases hexecute with
      ⟨code, _, rfl⟩ | ⟨accepted, body, hdecode, hrun, rfl⟩
    · exact ⟨code, [], rfl, fun _ => rfl, by decide⟩
    · have hlength := length_run hdecode hrun
      refine ⟨.success, body, rfl, fun hne => absurd rfl hne, ?_⟩
      simp only [headerSize] at *
      omega
  · cases hframe

end Simulator

/-! ## What the client makes of it -/

/-- What a client wants of the frame of an answer to a command with this tag. -/
structure WellFramed (tag : UInt16) (answer : Bytes) : Prop where
  tag_eq : Answer.tag answer = tag.toNat + 3
  declared_eq : declared answer = answer.length
  length_refusal : returnCode answer ≠ 0 → answer.length = 10

/-- An error that blames the transport, or the frame of an answer. -/
inductive Error.OfFrame : Error → Prop
  | io (text : String) : OfFrame (.io text)
  | shortWrite (written expected : Nat) : OfFrame (.shortWrite written expected)
  | incorrectTag (expected received : UInt16) : OfFrame (.incorrectTag expected received)
  | incorrectSize (declared : UInt32) : OfFrame (.incorrectSize declared)

theorem Error.OfBody.not_ofFrame {error : Error} (h : error.OfBody) : ¬ error.OfFrame := by
  cases h <;> exact nofun

theorem Simulator.wellFramed_answer {tag : UInt16} (htag : tag.toNat ≤ 0xFFFC) {code : ReturnCode}
    {body : Bytes} (hcode : code ≠ .success → body = [])
    (hsize : headerSize + body.length < 0x100000000) :
    WellFramed tag (answer (Tag.answering tag) code body) where
  tag_eq := by
    rw [tag_answer, Tag.answering, UInt16.toNat_add]
    exact Nat.mod_eq_of_lt (Nat.lt_succ_of_le (Nat.add_le_add_right htag 3))
  declared_eq := by
    rw [declared_answer _ _ _ hsize, length_answer]
  length_refusal := by
    rw [returnCode_answer, length_answer]
    intro hne
    have hrefused : code ≠ .success := by
      rintro rfl
      exact hne rfl
    rw [hcode hrefused]
    rfl

section Receiving

variable {tag : UInt16} {kinds : List FieldKind} {targets : FieldKind.Values kinds}
  {code : ReturnCode} {body : Bytes} {limit : Nat}

/-- However much of an answer is read, the client finds no fault with its frame. -/
theorem receive_answer_not_ofFrame (hsize : headerSize + body.length < 0x100000000)
    {received : Received kinds} {error : Error}
    (hreceive : receive tag kinds targets
      ((Simulator.answer (Tag.answering tag) code body).take limit) = some received)
    (h : received.result = .error error) : ¬ error.OfFrame := by
  rw [receive_answer tag kinds targets code body limit hsize] at hreceive
  obtain rfl := Option.some.inj hreceive
  split at h
  · cases h
    exact nofun
  · split at h
    · cases h
      exact nofun
    · split at h
      · cases h
        exact nofun
      · split at h
        · cases h
        · exact (FieldKind.fillAll_eq_error (map_eq_error h)).not_ofFrame

/-- A client that reads the whole answer reports a refusal, with its code, and nothing else as
one. -/
theorem receive_answer_eq_device (hsize : headerSize + body.length < 0x100000000)
    (hfits : headerSize + body.length ≤ limit) {received : Received kinds}
    (hreceive : receive tag kinds targets
      ((Simulator.answer (Tag.answering tag) code body).take limit) = some received)
    (other : ReturnCode) :
    received.result = .error (.device other) ↔ other ≠ .success ∧ code = other := by
  rw [receive_answer tag kinds targets code body limit hsize, if_neg (by omega)] at hreceive
  obtain rfl := Option.some.inj hreceive
  by_cases hcode : code = .success
  · rw [if_neg (not_not_intro hcode), if_neg (by omega)]
    constructor
    · intro h
      split at h
      · cases h
      · cases FieldKind.fillAll_eq_error (map_eq_error h)
    · rintro ⟨hother, rfl⟩
      exact absurd hcode hother
  · rw [if_pos hcode]
    constructor
    · intro h
      cases h
      exact ⟨hcode, rfl⟩
    · rintro ⟨_, rfl⟩
      rfl

end Receiving

namespace Client

/-- Client and simulator agree on frames. Whatever packed command the simulator answers, the answer
has the tag that belongs to the command's and its true length, and no body if it is a refusal. A
client of any response size that a buffer can have finds no fault with the transport or the frame,
whatever its targets; if the answer fits it reports a refusal exactly if there was one, with its
code. Either way the answer is no longer there for the next command. -/
theorem frames_agree {tag : UInt16} {ordinal : UInt32} {input : List Field}
    {request answer : Bytes} {sim next : Simulator} (htag : tag.toNat ≤ 0xFFFC)
    (hframe : CommandHeader.frame tag ordinal input = .ok request)
    (hexecute : sim.execute request = some (answer, next)) :
    WellFramed tag answer ∧
    ∀ (kinds : List FieldKind) (targets : FieldKind.Values kinds) (limit : Nat),
      limit < bufferLimit →
      ∃ received, submitInto tag ordinal input kinds targets ⟨sim, limit⟩ =
          some (received, ⟨{ next with pending := none }, limit⟩) ∧
        (∀ error, received.result = .error error → ¬ error.OfFrame) ∧
        (answer.length ≤ limit → ∀ code : ReturnCode,
          received.result = .error (.device code) ↔
            code ≠ .success ∧ returnCode answer = code.value.toNat) := by
  obtain ⟨code, body, rfl, hcode, hsize⟩ := Simulator.execute_framed hframe hexecute
  refine ⟨Simulator.wellFramed_answer htag hcode hsize, ?_⟩
  intro kinds targets limit hlimit
  have hsubmit := submitInto_simulator hframe targets ⟨sim, limit⟩
  obtain ⟨received, hreceive, _⟩ := judged_receive tag kinds targets
    ((Simulator.answer (Tag.answering tag) code body).take limit)
  simp only [if_pos hlimit, hexecute, Option.bind_some, hreceive, Option.map_some] at hsubmit
  refine ⟨received, hsubmit, fun error => receive_answer_not_ofFrame hsize hreceive, ?_⟩
  intro hfits other
  rw [Simulator.length_answer] at hfits
  rw [receive_answer_eq_device hsize hfits hreceive, returnCode_answer, UInt32.toNat_inj,
    ← ReturnCode.mk.injEq]

/-- A register that no device has is refused, and the refusal fits ten bytes. -/
theorem frames_agree_pcrRead :
    ∃ answer, WellFramed Tag.request answer ∧
      ∃ received after, submitInto Tag.request Ordinal.pcrRead [.u32 30] [.plain (.block 20)]
          (.zero 20, ()) (⟨{}, 10⟩ : Client Simulator) = some (received, after) ∧
        received.result = .error (.device .badIndex) ∧ after.device.pending = none := by
  have hexecute : ({} : Simulator).execute
      (CommandHeader.message Tag.request Ordinal.pcrRead (bigEndian 4 30)) =
        some (Simulator.answer Tag.response .badIndex [],
          ({} : Simulator).logged Ordinal.pcrRead) := rfl
  obtain ⟨hframed, hsubmit⟩ :=
    @frames_agree Tag.request Ordinal.pcrRead [.u32 30] _ _ _ _ (by decide) rfl hexecute
  obtain ⟨received, hreceived, _, hdevice⟩ :=
    hsubmit [.plain (.block 20)] (.zero 20, ()) 10 (by decide)
  exact ⟨_, hframed, received, _, hreceived,
    (hdevice (by decide) .badIndex).mpr ⟨by decide, by decide⟩, rfl⟩

/-- The simulator has answered, but no buffer is large enough for the client to read into. -/
theorem frames_beyond_buffers :
    ({} : Simulator).Reachable ∧ Tag.request.toNat ≤ 0xFFFC ∧
    ∃ request answer next,
      CommandHeader.frame Tag.request Ordinal.pcrRead [.u32 30] = .ok request ∧
      ({} : Simulator).execute request = some (answer, next) ∧ answer.length ≤ bufferLimit ∧
      submitInto Tag.request Ordinal.pcrRead [.u32 30] [.plain (.block 20)] (.zero 20, ())
        (⟨{}, bufferLimit⟩ : Client Simulator) = none := by
  have hframe : CommandHeader.frame Tag.request Ordinal.pcrRead [.u32 30] =
      .ok (CommandHeader.message Tag.request Ordinal.pcrRead (bigEndian 4 30)) := rfl
  refine ⟨⟨3, .refl⟩, by decide, _, _, _, hframe, rfl, by decide, ?_⟩
  rw [submitInto_simulator hframe, if_neg (Nat.lt_irrefl _)]

end Client

end TrustedModule
