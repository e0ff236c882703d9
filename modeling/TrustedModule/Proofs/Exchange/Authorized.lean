import TrustedModule.Parameters
import TrustedModule.Proofs.Exchange.Framing
import TrustedModule.Proofs.Simulator.Outputs

/-!
# Authorized exchanges

An authorized command reaches the simulator as its key handle, its parameters and its blocks, and
the client sees the answer as far as it has room for it. A command that was not accepted leaves the
sessions alone, and the body of an accepted one is there as a whole or not at all.
-/

set_option autoImplicit false

namespace TrustedModule

theorem AuthorizedCommand.length_body (keyHandle : Handle) (params : Bytes)
    (blocks : List CommandAuth) :
    (body keyHandle params blocks).length =
      4 + params.length + blocks.length * CommandAuth.wireLength := by
  simp only [body, List.length_append, length_bigEndian, CommandAuth.length_encodings]

namespace Field

/-- Structures that all have an encoding go behind any fields but a remainder. -/
theorem encode_append_structures {α : Type} [Wire α] {encoding : α → Bytes} {fields : List Field}
    (hfields : ∀ field ∈ fields, field.kind.policy ≠ .remainder)
    (h : ∀ a : α, Wire.encode a = .ok (encoding a)) (items : List α) :
    encode (fields ++ items.map ofWire) =
      (encode fields).map fun bytes => bytes ++ items.flatMap encoding := by
  have hall : ∀ field ∈ fields ++ items.map ofWire, field.kind.policy ≠ .remainder := by
    intro field hmem
    rcases List.mem_append.mp hmem with hmem | hmem
    · exact hfields field hmem
    · exact no_remainder_structures items field hmem
  rw [encode_of_no_remainder hall, encode_of_no_remainder hfields, encodeEach_append,
    encodeEach_structures h]
  cases encodeEach fields <;> rfl

/-- The fields of a request have an encoding if the parameters have one. -/
theorem encode_request {fields : List Field}
    (hfields : ∀ field ∈ fields, field.kind.policy ≠ .remainder) (keyHandle : Handle)
    (blocks : List CommandAuth) :
    encode (.u32 keyHandle :: fields ++ blocks.map ofWire) =
      (encode fields).map fun params => AuthorizedCommand.body keyHandle params blocks := by
  have hcons : ∀ field ∈ u32 keyHandle :: fields, field.kind.policy ≠ .remainder := by
    intro field hmem
    rcases List.mem_cons.mp hmem with rfl | hmem
    · simp [u32, FieldKind.policy]
    · exact hfields field hmem
  rw [encode_append_structures hcons CommandAuth.encode_eq, encode_of_no_remainder hcons,
    encode_of_no_remainder hfields, encodeEach]
  cases encodeEach fields <;> rfl

theorem encode_ofWire {α : Type} [Wire α] {a : α} {bytes : Bytes} (h : Wire.encode a = .ok bytes) :
    encode [ofWire a] = .ok bytes :=
  encode_eq_ok.mpr ⟨rfl, append_eq_ok.mpr ⟨bytes, [], h, rfl, (List.append_nil _).symm⟩⟩

end Field

theorem CommandHeader.frame_request {fields : List Field}
    (hfields : ∀ field ∈ fields, field.kind.policy ≠ .remainder) (tag : UInt16) (ordinal : UInt32)
    (keyHandle : Handle) (blocks : List CommandAuth) :
    frame tag ordinal (.u32 keyHandle :: fields ++ blocks.map .ofWire) =
      (Field.encode fields).bind fun params =>
        let body := AuthorizedCommand.body keyHandle params blocks
        if headerSize + body.length < 0x100000000 then .ok (message tag ordinal body)
        else .error (.overflow (.command (headerSize + body.length))) := by
  rw [frame_eq, Field.encode_request hfields]
  cases Field.encode fields <;> rfl

namespace Simulator

theorem length_accepted {command : AuthorizedCommand} {keyHandle : Handle} {params body : Bytes}
    {auths : List CommandAuth} {sim next : Simulator}
    (h : sim.runAuthorized command keyHandle params auths = some (.ok body, next)) :
    auths.length * ResponseAuth.wireLength ≤ body.length ∧
      body.length ≤ max params.length 70000 + auths.length * ResponseAuth.wireLength := by
  obtain ⟨_, _, output, middle, answers, hperform, hanswer, rfl⟩ := runAuthorized_eq_ok.mp h
  have houtput := length_output hperform
  simp only [List.length_append, ResponseAuth.length_encodings, length_answers hanswer]
  constructor <;> omega

end Simulator

theorem Received.toExcept_ofFilled {kinds : List FieldKind} (returnCode : UInt32)
    (filled : Filled (FieldKind.Values kinds)) :
    (ofFilled returnCode filled).toExcept = filled.toExcept.map (returnCode, ·) := by
  obtain ⟨target, _ | _, buffer⟩ := filled <;> rfl

namespace Client

/-- What a client with room for `limit` bytes makes of a refusal, or of the body of an answer. -/
def outcome (limit : Nat) (kinds : List FieldKind) (initial : FieldKind.Values kinds) :
    Except ReturnCode Bytes → Except Error (UInt32 × FieldKind.Values kinds)
  | .error code =>
    if limit < headerSize then .error (.underflow headerSize limit) else .error (.device code)
  | .ok body =>
    if limit < headerSize then .error (.underflow headerSize limit)
    else if limit < headerSize + body.length then
      .error (.underflow (headerSize + body.length) limit)
    else (FieldKind.fillAll kinds initial (Buffer.ofBytes body)).toExcept.map (0, ·)

theorem outcome_refused (limit : Nat) (kinds : List FieldKind) (initial : FieldKind.Values kinds)
    (code : ReturnCode) : ∃ error, outcome limit kinds initial (.error code) = .error error := by
  simp only [outcome]
  split
  · exact ⟨_, rfl⟩
  · exact ⟨_, rfl⟩

theorem outcome_of_fits {limit : Nat} {body : Bytes} (h : headerSize + body.length ≤ limit)
    (kinds : List FieldKind) (initial : FieldKind.Values kinds) :
    outcome limit kinds initial (.ok body) =
      (FieldKind.fillAll kinds initial (Buffer.ofBytes body)).toExcept.map (0, ·) := by
  simp only [outcome]
  rw [if_neg (by omega), if_neg (by omega)]

theorem outcome_of_short {limit : Nat} {body : Bytes} (hlow : headerSize ≤ limit)
    (h : limit < headerSize + body.length) (kinds : List FieldKind)
    (initial : FieldKind.Values kinds) :
    outcome limit kinds initial (.ok body) =
      .error (.underflow (headerSize + body.length) limit) := by
  simp only [outcome]
  rw [if_neg (by omega), if_pos h]

/-- Only a body that the client reads as a whole gives values, and return code zero. -/
theorem outcome_eq_ok {limit : Nat} {kinds : List FieldKind}
    {initial values : FieldKind.Values kinds} {returnCode : UInt32}
    {result : Except ReturnCode Bytes}
    (h : outcome limit kinds initial result = .ok (returnCode, values)) :
    returnCode = 0 ∧ ∃ body, result = .ok body ∧
      (FieldKind.fillAll kinds initial (Buffer.ofBytes body)).toExcept = .ok values := by
  cases result with
  | error code =>
    simp only [outcome] at h
    split at h <;> cases h
  | ok body =>
    simp only [outcome] at h
    split at h
    · cases h
    · split at h
      · cases h
      · obtain ⟨read, hread, heq⟩ := map_eq_ok h
        cases heq
        exact ⟨rfl, body, rfl, hread⟩

theorem receive_respond (tag : UInt16) (kinds : List FieldKind) (initial : FieldKind.Values kinds)
    (limit : Nat) {result : Except ReturnCode Bytes} (next : Simulator)
    (hcode : ∀ code, result = .error code → code ≠ .success)
    (hbody : ∀ body, result = .ok body → body ≠ [] ∧ headerSize + body.length < 0x100000000) :
    ∃ received, receive tag kinds initial
        ((Simulator.respond tag (result, next)).1.take limit) = some received ∧
      received.toExcept = outcome limit kinds initial result := by
  cases result with
  | error code =>
    refine ⟨_, receive_answer tag kinds initial code [] limit (by decide), ?_⟩
    simp only [outcome]
    by_cases hshort : limit < headerSize
    · rw [if_pos hshort, if_pos hshort]
      rfl
    · rw [if_neg hshort, if_pos (hcode code rfl), if_neg hshort]
      rfl
  | ok body =>
    obtain ⟨hne, hsize⟩ := hbody body rfl
    refine ⟨_, receive_answer tag kinds initial .success body limit hsize, ?_⟩
    simp only [outcome]
    by_cases hshort : limit < headerSize
    · rw [if_pos hshort, if_pos hshort]
      rfl
    · rw [if_neg hshort, if_neg (not_not_intro rfl), if_neg hshort]
      by_cases hcut : limit < headerSize + body.length
      · rw [if_pos hcut, if_pos hcut]
        rfl
      · rw [if_neg hcut, if_neg hcut, if_neg hne, Received.toExcept_ofFilled]

/-- A command that the simulator can read: what it does there, and what the client gets. -/
theorem submit_run {tag : UInt16} {ordinal : UInt32} {input : List Field} {body : Bytes}
    {request : Request} {kinds : List FieldKind} {sim : Simulator}
    (hframe : CommandHeader.frame tag ordinal input = .ok (CommandHeader.message tag ordinal body))
    (hdecode : Request.decode tag ordinal body = some (.ok request))
    (hcode : ∀ code next, (sim.logged ordinal).run request = some (.error code, next) →
      code ≠ .success)
    (hbody : ∀ answer next, (sim.logged ordinal).run request = some (.ok answer, next) →
      answer ≠ [] ∧ headerSize + answer.length < 0x100000000)
    (initial : FieldKind.Values kinds) (limit : Nat) :
    submit tag ordinal input kinds initial (⟨sim, limit⟩ : Client Simulator) =
      if limit < bufferLimit then
        ((sim.logged ordinal).run request).map fun (result, next) =>
          (outcome limit kinds initial result, ⟨{ next with pending := none }, limit⟩)
      else
        none := by
  rw [submit_simulator hframe, Simulator.execute_message, hdecode, Option.bind_some]
  dsimp only
  split
  · cases hrun : (sim.logged ordinal).run request with
    | none => rfl
    | some ran =>
      obtain ⟨result, next⟩ := ran
      obtain ⟨received, hreceive, houtcome⟩ := receive_respond tag kinds initial limit next
        (fun code heq => hcode code next (heq ▸ hrun))
        (fun answer heq => hbody answer next (heq ▸ hrun))
      have hnext := Simulator.respond_next tag (result, next)
      simp only [Option.map_some, Option.bind_some, hreceive, houtcome, hnext]
  · rfl

theorem submit_run_eq_ok {tag : UInt16} {ordinal : UInt32} {input : List Field} {body : Bytes}
    {request : Request} {kinds : List FieldKind} {initial values : FieldKind.Values kinds}
    {returnCode : UInt32} {sim : Simulator} {limit : Nat} {after : Client Simulator}
    (hframe : CommandHeader.frame tag ordinal input = .ok (CommandHeader.message tag ordinal body))
    (hdecode : Request.decode tag ordinal body = some (.ok request))
    (hcode : ∀ code next, (sim.logged ordinal).run request = some (.error code, next) →
      code ≠ .success)
    (hbody : ∀ answer next, (sim.logged ordinal).run request = some (.ok answer, next) →
      answer ≠ [] ∧ headerSize + answer.length < 0x100000000)
    (h : submit tag ordinal input kinds initial ⟨sim, limit⟩ =
      some (.ok (returnCode, values), after)) :
    ∃ answer next, (sim.logged ordinal).run request = some (.ok answer, next) ∧
      (FieldKind.fillAll kinds initial (Buffer.ofBytes answer)).toExcept = .ok values ∧
      after.device = { next with pending := none } := by
  rw [submit_run hframe hdecode hcode hbody] at h
  split at h
  · obtain ⟨⟨result, next⟩, hrun, heq⟩ := Option.map_eq_some_iff.mp h
    obtain ⟨hresult, rfl⟩ := Prod.mk.inj heq
    obtain ⟨_, answer, rfl, hvalues⟩ := outcome_eq_ok hresult
    exact ⟨answer, next, hrun, hvalues, rfl⟩
  · cases h

theorem submit_authorized {command : AuthorizedCommand} {fields : List Field} {params : Bytes}
    {keyHandle : Handle} {blocks : List CommandAuth} {kinds : List FieldKind}
    (hfields : ∀ field ∈ fields, field.kind.policy ≠ .remainder)
    (hparams : Field.encode fields = .ok params) (hcount : blocks.length = command.authCount)
    (hsize : headerSize + (AuthorizedCommand.body keyHandle params blocks).length < 0x100000000)
    (initial : FieldKind.Values kinds) (sim : Simulator) (limit : Nat) :
    submit command.tag command.ordinal (.u32 keyHandle :: fields ++ blocks.map .ofWire) kinds
        initial (⟨sim, limit⟩ : Client Simulator) =
      if limit < bufferLimit then
        ((sim.logged command.ordinal).runAuthorized command keyHandle params blocks).map
          fun (result, next) =>
            (outcome limit kinds initial result, ⟨{ next with pending := none }, limit⟩)
      else
        none := by
  have hframe := CommandHeader.frame_request hfields command.tag command.ordinal keyHandle blocks
  rw [hparams] at hframe
  simp only [Except.bind, if_pos hsize] at hframe
  refine submit_run hframe (Request.decode_body hcount keyHandle params) ?_ ?_ initial limit
  · intro code next hrun
    exact Simulator.runAuthorized_ne_success hrun
  · intro body next hrun
    obtain ⟨hlow, hhigh⟩ := Simulator.length_accepted hrun
    have hpos := command.authCount_pos
    have hle := command.authCount_le
    rw [AuthorizedCommand.length_body] at hsize
    simp only [hcount, headerSize, ResponseAuth.wireLength, CommandAuth.wireLength] at *
    refine ⟨?_, by omega⟩
    rintro rfl
    rw [List.length_nil] at hlow
    omega

/-- If the answer fits, the command was either not accepted, and then no session moved, or the
client reads the whole body of what it gave out. -/
theorem submit_settles {command : AuthorizedCommand} {fields : List Field} {keyHandle : Handle}
    {blocks : List CommandAuth} {kinds : List FieldKind} {initial : FieldKind.Values kinds}
    {sim : Simulator} {limit : Nat} {result : Except Error (UInt32 × FieldKind.Values kinds)}
    {after : Client Simulator} (hfields : ∀ field ∈ fields, field.kind.policy ≠ .remainder)
    (hcount : blocks.length = command.authCount)
    (hfits : ∀ request answer next, CommandHeader.frame command.tag command.ordinal
        (.u32 keyHandle :: fields ++ blocks.map .ofWire) = .ok request →
      sim.execute request = some (answer, next) → answer.length ≤ limit)
    (h : submit command.tag command.ordinal (.u32 keyHandle :: fields ++ blocks.map .ofWire) kinds
      initial ⟨sim, limit⟩ = some (result, after)) :
    (∃ error, result = .error error) ∧ after.device.sessions = sim.sessions ∨
      ∃ params output middle answers next,
        (sim.logged command.ordinal).perform command params = some (.ok output, middle) ∧
        middle.sessions = sim.sessions ∧
        Simulator.answerAuths (responseDigest 0 command.ordinal output.params) blocks middle =
          some (answers, next) ∧
        after.device.sessions = next.sessions ∧
        result = (FieldKind.fillAll kinds initial (Buffer.ofBytes (output.handles ++
          output.params ++ answers.flatMap ResponseAuth.encoding))).toExcept.map (0, ·) := by
  have hframe := CommandHeader.frame_request hfields command.tag command.ordinal keyHandle blocks
  cases hparams : Field.encode fields with
  | error error =>
    rw [hparams] at hframe
    rw [submit_of_frame_error hframe] at h
    cases h
    exact .inl ⟨⟨error, rfl⟩, rfl⟩
  | ok params =>
    rw [hparams] at hframe
    simp only [Except.bind] at hframe
    by_cases hsize :
        headerSize + (AuthorizedCommand.body keyHandle params blocks).length < 0x100000000
    · rw [if_pos hsize] at hframe
      rw [submit_authorized hfields hparams hcount hsize] at h
      have hexecute := Simulator.execute_message command.tag command.ordinal
        (AuthorizedCommand.body keyHandle params blocks) sim
      rw [Request.decode_body hcount, Option.bind_some] at hexecute
      dsimp only [Simulator.run] at hexecute
      split at h
      · obtain ⟨⟨ran, next⟩, hrun, heq⟩ := Option.map_eq_some_iff.mp h
        obtain ⟨rfl, rfl⟩ := Prod.mk.inj heq
        rw [hrun] at hexecute
        cases ran with
        | error code =>
          left
          obtain rfl := Simulator.runAuthorized_refused hrun
          exact ⟨outcome_refused limit kinds initial code, rfl⟩
        | ok body =>
          right
          simp only [Option.map_some, Simulator.respond] at hexecute
          have hlength := hfits _ _ _ hframe hexecute
          rw [Simulator.length_answer] at hlength
          obtain ⟨_, _, output, middle, answers, hperform, hanswer, rfl⟩ :=
            Simulator.runAuthorized_eq_ok.mp hrun
          have hmiddle : middle.sessions = sim.sessions := by
            obtain rfl | ⟨_, _, rfl⟩ := Simulator.perform_next hperform <;> rfl
          exact ⟨params, output, middle, answers, next, hperform, hmiddle, hanswer, rfl,
            outcome_of_fits hlength kinds initial⟩
      · cases h
    · rw [if_neg hsize] at hframe
      rw [submit_of_frame_error hframe] at h
      cases h
      exact .inl ⟨⟨_, rfl⟩, rfl⟩

end Client

end TrustedModule
