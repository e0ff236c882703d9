import TrustedModule.Client
import TrustedModule.Device.Simulator
import TrustedModule.Proofs.Wire.Spelling

/-!
# Framing of commands and answers

A command is its header, with the true length, and the encoding of its fields; the simulator reads
back the same tag, ordinal and body. Of an answer the client sees as many bytes as it asked for, and
what it makes of them depends on the return code, on whether the answer was cut, and on the body.
-/

set_option autoImplicit false

namespace TrustedModule

/-! ## Commands -/

/-- A whole command: the header with the true length, and the body. -/
def CommandHeader.message (tag : UInt16) (ordinal : UInt32) (body : Bytes) : Bytes :=
  bigEndian 2 tag.toNat ++ bigEndian 4 (headerSize + body.length) ++ bigEndian 4 ordinal.toNat ++
    body

@[simp] theorem CommandHeader.length_message (tag : UInt16) (ordinal : UInt32) (body : Bytes) :
    (message tag ordinal body).length = headerSize + body.length := by
  simp only [message, headerSize, List.length_append, length_bigEndian]

theorem CommandHeader.encode_eq (header : CommandHeader) :
    Wire.encode header = .ok (bigEndian 2 header.tag.toNat ++ bigEndian 4 header.size.toNat ++
      bigEndian 4 header.ordinal.toNat) := by
  simp [Wire.encode, Wire.layout, Wire.toValue, bind, Except.bind, pure, Except.pure]

theorem ResponseHeader.encode_eq (header : ResponseHeader) :
    Wire.encode header = .ok (bigEndian 2 header.tag.toNat ++ bigEndian 4 header.size.toNat ++
      bigEndian 4 header.returnCode.toNat) := by
  simp [Wire.encode, Wire.layout, Wire.toValue, bind, Except.bind, pure, Except.pure]

/-- The length goes into the four bytes behind the tag. -/
theorem Buffer.patchU32_length (tag ordinal size : Nat) (body : Bytes) :
    Buffer.patchU32 2 (UInt32.ofNat size)
        (Buffer.empty.append (bigEndian 2 tag ++ bigEndian 4 0 ++ bigEndian 4 ordinal ++ body)) =
      (.ok (), ⟨[], bigEndian 2 tag ++ bigEndian 4 size ++ bigEndian 4 ordinal ++ body⟩) := by
  have hstart : (2 : UInt64).toNat = 2 := rfl
  have hstop : ((2 : UInt64) + 4).toNat = 6 := rfl
  have hlength : 6 ≤ (bigEndian 2 tag ++ bigEndian 4 0 ++ bigEndian 4 ordinal ++ body).length := by
    simp only [List.length_append, length_bigEndian]
    omega
  have htake : (bigEndian 2 tag ++ bigEndian 4 0 ++ bigEndian 4 ordinal ++ body).take 2 =
      bigEndian 2 tag := by
    simp [List.append_assoc]
  have hdrop : (bigEndian 2 tag ++ bigEndian 4 0 ++ bigEndian 4 ordinal ++ body).drop 6 =
      bigEndian 4 ordinal ++ body := by
    simp [List.append_assoc, List.drop_append]
  unfold patchU32
  simp only [contents_append_empty, hstart, hstop, htake, hdrop, bigEndian_ofNat]
  rw [if_pos ⟨by decide, hlength⟩]
  simp [withContents, position, Buffer.empty, append, List.append_assoc]

theorem CommandHeader.frame_eq (tag : UInt16) (ordinal : UInt32) (fields : List Field) :
    frame tag ordinal fields =
      (Field.encode fields).bind fun body =>
        if headerSize + body.length < 0x100000000 then .ok (message tag ordinal body)
        else .error (.overflow (.command (headerSize + body.length))) := by
  have hheader : Buffer.Appends (Wire.write { tag, ordinal : CommandHeader }) (.ok ())
      (bigEndian 2 tag.toNat ++ bigEndian 4 0 ++ bigEndian 4 ordinal.toNat) :=
    Layout.appends_of_encode (encode_eq { tag, ordinal })
  obtain ⟨result, body, hbody⟩ := Field.appends_writeAll fields
  have hencode : Field.encode fields = result.map fun () => body := hbody.output_eq
  rw [hencode, frame]
  cases result with
  | error error =>
    rw [Buffer.bind_of_ok (hheader _), Buffer.bind_of_error (hbody _)]
    rfl
  | ok _ =>
    have hsize : (Buffer.empty.append (bigEndian 2 tag.toNat ++ bigEndian 4 0 ++
        bigEndian 4 ordinal.toNat ++ body)).size = headerSize + body.length := by
      rw [Buffer.size, Buffer.contents_append_empty]
      simp only [headerSize, List.length_append, length_bigEndian]
    have hget : ∀ buffer : Buffer, (get : BufferM Buffer) buffer = (.ok buffer, buffer) :=
      fun _ => rfl
    rw [Buffer.bind_of_ok (hheader _), Buffer.bind_of_ok (hbody _), Buffer.append_append,
      Buffer.bind_of_ok (hget _), hsize]
    by_cases hfits : headerSize + body.length < 0x100000000
    · simp only [if_pos hfits, Buffer.patchU32_length, Except.map, Except.bind]
      rfl
    · simp only [if_neg hfits, Except.map, Except.bind]
      rfl

theorem CommandHeader.decode_message (tag : UInt16) (ordinal : UInt32) (body : Bytes) :
    Wire.decode CommandHeader (message tag ordinal body) =
      .ok { tag, size := UInt32.ofNat (headerSize + body.length), ordinal } := by
  have h := Wire.decode_append
    (encode_eq { tag, size := UInt32.ofNat (headerSize + body.length), ordinal }) body
  rwa [bigEndian_ofNat] at h

/-- A header can only be read off a command that has the bytes of one. -/
theorem CommandHeader.le_length_of_decode {command : Bytes} {header : CommandHeader}
    (h : Wire.decode CommandHeader command = .ok header) : headerSize ≤ command.length := by
  obtain ⟨bytes, hencode, hlength⟩ := Wire.encode_of_decode h
  cases (encode_eq header).symm.trans hencode
  simpa [headerSize] using hlength

theorem CommandHeader.drop_message (tag : UInt16) (ordinal : UInt32) (body : Bytes) :
    (message tag ordinal body).drop headerSize = body := by
  unfold message
  exact List.drop_left' (by simp [headerSize])

namespace Simulator

/-- The answer to a command with this tag, from what came of it; a refusal has no body. -/
def respond (tag : UInt16) : Except ReturnCode Bytes × Simulator → Bytes × Simulator
  | (.error code, sim) => (answer (Tag.answering tag) code [], sim)
  | (.ok body, sim) => (answer (Tag.answering tag) .success body, sim)

theorem respond_next (tag : UInt16) (outcome : Except ReturnCode Bytes × Simulator) :
    (respond tag outcome).2 = outcome.2 := by
  obtain ⟨_ | _, _⟩ := outcome <;> rfl

/-- The simulator after it has noted a command. -/
def logged (ordinal : UInt32) (sim : Simulator) : Simulator :=
  { sim with ordinals := sim.ordinals ++ [ordinal] }

/-- What the simulator makes of a command whose header can be read. -/
theorem execute_of_header {command : Bytes} {header : CommandHeader}
    (h : Wire.decode CommandHeader command = .ok header) (sim : Simulator) :
    sim.execute command =
      (Request.decode header.tag header.ordinal (command.drop headerSize)).bind fun
        | .error code => some (respond header.tag (.error code, sim.logged header.ordinal))
        | .ok request => ((sim.logged header.ordinal).run request).map (respond header.tag) := by
  unfold execute
  rw [h]
  dsimp only
  rw [slice?_length (CommandHeader.le_length_of_decode h), Option.bind_eq_bind, Option.bind_some]
  refine congrArg (Option.bind _) (funext fun decoded => ?_)
  cases decoded with
  | error code => rfl
  | ok request =>
    change ((sim.logged header.ordinal).run request).bind _ =
      ((sim.logged header.ordinal).run request).map _
    cases (sim.logged header.ordinal).run request with
    | none => rfl
    | some ran => obtain ⟨_ | _, _⟩ := ran <;> rfl

theorem execute_message (tag : UInt16) (ordinal : UInt32) (body : Bytes) (sim : Simulator) :
    sim.execute (CommandHeader.message tag ordinal body) =
      (Request.decode tag ordinal body).bind fun
        | .error code => some (respond tag (.error code, sim.logged ordinal))
        | .ok request => ((sim.logged ordinal).run request).map (respond tag) := by
  rw [execute_of_header (CommandHeader.decode_message tag ordinal body),
    CommandHeader.drop_message]

end Simulator

/-! ## Answers -/

@[simp] theorem Simulator.length_answer (tag : UInt16) (code : ReturnCode) (body : Bytes) :
    (answer tag code body).length = headerSize + body.length := by
  simp only [answer, headerSize, List.length_append, length_bigEndian]

theorem Simulator.drop_answer (tag : UInt16) (code : ReturnCode) (body : Bytes) :
    (answer tag code body).drop headerSize = body := by
  unfold answer
  exact List.drop_left' (by simp [headerSize])

theorem Simulator.slice?_answer (tag : UInt16) (code : ReturnCode) (body : Bytes) :
    slice? headerSize (headerSize + body.length) (answer tag code body) = some body := by
  have hslice := @slice?_append (bigEndian 2 tag.toNat ++ bigEndian 4 (headerSize + body.length) ++
    bigEndian 4 code.value.toNat) body [] headerSize _ (by simp [headerSize]) rfl
  rwa [List.append_nil] at hslice

/-- The header of an answer that was cut behind its header at most. -/
theorem ResponseHeader.unframe_answer (tag : UInt16) (code : ReturnCode) (body : Bytes)
    {limit : Nat} (hlimit : headerSize ≤ limit) :
    unframe ((Simulator.answer tag code body).take limit) =
      some (.ok
        { tag, size := UInt32.ofNat (headerSize + body.length), returnCode := code.value }) := by
  have htake : (Simulator.answer tag code body).take headerSize =
      bigEndian 2 tag.toNat ++ bigEndian 4 (headerSize + body.length) ++
        bigEndian 4 code.value.toNat := by
    unfold Simulator.answer
    exact List.take_left' (by simp [headerSize])
  have hdecode := Wire.decode_append (encode_eq
    { tag, size := UInt32.ofNat (headerSize + body.length), returnCode := code.value }) []
  rw [List.append_nil, bigEndian_ofNat] at hdecode
  have hlength : headerSize ≤ ((Simulator.answer tag code body).take limit).length := by
    rw [List.length_take, Simulator.length_answer]
    omega
  unfold unframe
  rw [if_neg (Nat.not_lt.mpr hlength), slice?_zero hlength, List.take_take,
    Nat.min_eq_left hlimit, htake, Option.map_some, hdecode]

/-- The header of an answer that was not cut. -/
theorem ResponseHeader.unframe_whole (tag : UInt16) (code : ReturnCode) (body : Bytes) :
    unframe (Simulator.answer tag code body) =
      some (.ok
        { tag, size := UInt32.ofNat (headerSize + body.length), returnCode := code.value }) := by
  have hwhole := unframe_answer tag code body (Nat.le_add_right headerSize body.length)
  rwa [← Simulator.length_answer tag code body, List.take_length,
    Simulator.length_answer] at hwhole

/-- The header of an answer to a command with the same tag is only rejected with a refusal, or
because the answer was cut. -/
theorem ResponseHeader.check_answer (tag : UInt16) (code : ReturnCode) {size limit : Nat}
    (hsize : size < 0x100000000) (hheader : headerSize ≤ size) :
    check tag (min limit size)
        { tag := Tag.answering tag, size := UInt32.ofNat size, returnCode := code.value } =
      if code ≠ .success then .error (.device code)
      else if limit < size then .error (.underflow size limit)
      else .ok () := by
  have hdeclared : (UInt32.ofNat size).toNat = size := by
    rw [UInt32.toNat_ofNat', Nat.mod_eq_of_lt hsize]
  have hcode : code.value ≠ 0 ↔ code ≠ .success := by
    rw [not_iff_not]
    constructor
    · intro h
      cases code
      exact congrArg ReturnCode.mk h
    · rintro rfl
      rfl
  simp only [check, hdeclared, hcode, ne_eq, not_true_eq_false, if_false]
  by_cases hrefused : code = .success
  · rw [if_neg (not_not_intro hrefused), if_neg (not_not_intro hrefused),
      if_neg (Nat.not_lt.mpr hheader)]
    by_cases hcut : limit < size
    · rw [if_pos (by omega), if_pos hcut, Nat.min_eq_left (by omega)]
    · rw [if_neg (by omega), if_neg hcut]
  · rw [if_pos hrefused, if_pos hrefused]

/-- A client that is given `limit` bytes of an answer to its command tells a refusal, an answer that
was cut, and a whole one; the body of the latter fills the targets. -/
theorem receive_answer (tag : UInt16) (kinds : List FieldKind) (targets : FieldKind.Values kinds)
    (code : ReturnCode) (body : Bytes) (limit : Nat)
    (hsize : headerSize + body.length < 0x100000000) :
    receive tag kinds targets ((Simulator.answer (Tag.answering tag) code body).take limit) =
      some (if limit < headerSize then ⟨targets, .error (.underflow headerSize limit)⟩
        else if code ≠ .success then ⟨targets, .error (.device code)⟩
        else if limit < headerSize + body.length then
          ⟨targets, .error (.underflow (headerSize + body.length) limit)⟩
        else if body = [] then ⟨targets, .ok 0⟩
        else .ofFilled 0 (FieldKind.fillAll kinds targets (Buffer.ofBytes body))) := by
  have hlength : ((Simulator.answer (Tag.answering tag) code body).take limit).length =
      min limit (headerSize + body.length) := by
    rw [List.length_take, Simulator.length_answer]
  by_cases hshort : limit < headerSize
  · have hunframe : ResponseHeader.unframe
        ((Simulator.answer (Tag.answering tag) code body).take limit) =
          some (.error (.underflow headerSize limit)) := by
      unfold ResponseHeader.unframe
      rw [hlength, if_pos (by omega), Nat.min_eq_left (by omega)]
    rw [receive, hunframe, if_pos hshort]
    rfl
  · have hunframe := ResponseHeader.unframe_answer (Tag.answering tag) code body
      (Nat.le_of_not_lt hshort)
    have hcheck := @ResponseHeader.check_answer tag code _ limit hsize (Nat.le_add_right ..)
    rw [receive, hunframe, if_neg hshort]
    simp only [Option.bind_eq_bind, Option.bind_some, hlength, hcheck]
    by_cases hrefused : code = .success
    · subst hrefused
      rw [if_neg (not_not_intro rfl), if_neg (not_not_intro rfl)]
      by_cases hcut : limit < headerSize + body.length
      · rw [if_pos hcut, if_pos hcut]
        rfl
      · rw [if_neg hcut, if_neg hcut, List.take_of_length_le (by
          rw [Simulator.length_answer]
          exact Nat.le_of_not_lt hcut)]
        dsimp only
        rw [UInt32.toNat_ofNat_of_lt' hsize, Simulator.slice?_answer]
        cases body <;> simp [ReturnCode.success]
    · rw [if_pos hrefused, if_pos hrefused]
      rfl

/-! ## Whole exchanges -/

namespace Client

section Sequencing

variable {σ α β : Type} {first : Exchange σ α} {next : α → Exchange σ β} {client after : Client σ}

theorem bind_of_none (h : first client = none) : (first >>= next) client = none := by
  simp only [bind, ExceptT.bind, ExceptT.mk, StateT.bind, h]
  rfl

theorem bind_of_ok {a : α} (h : first client = some (.ok a, after)) :
    (first >>= next) client = next a after := by
  simp only [bind, ExceptT.bind, ExceptT.mk, StateT.bind, h]
  rfl

theorem bind_of_error {error : Error} (h : first client = some (.error error, after)) :
    (first >>= next) client = some (.error error, after) := by
  simp only [bind, ExceptT.bind, ExceptT.mk, StateT.bind, h]
  rfl

theorem bind_eq_ok {b : β} (h : (first >>= next) client = some (.ok b, after)) :
    ∃ a middle, first client = some (.ok a, middle) ∧ next a middle = some (.ok b, after) := by
  cases hfirst : first client with
  | none =>
    rw [bind_of_none hfirst] at h
    cases h
  | some outcome =>
    obtain ⟨result, middle⟩ := outcome
    cases result with
    | error error =>
      rw [bind_of_error hfirst] at h
      cases h
    | ok a =>
      rw [bind_of_ok hfirst] at h
      exact ⟨a, middle, rfl, h⟩

/-- An exchange whose result is judged without the device. -/
theorem bind_ofExcept (first : Exchange σ α) (judge : α → Except Error β) (client : Client σ) :
    (first >>= fun a => ofExcept (judge a)) client =
      (first client).map fun (result, after) => (result.bind judge, after) := by
  cases hfirst : first client with
  | none => exact bind_of_none hfirst
  | some outcome =>
    obtain ⟨result, after⟩ := outcome
    cases result with
    | error error => exact bind_of_error hfirst
    | ok a =>
      rw [bind_of_ok hfirst]
      simp only [Option.map_some, Except.bind]
      cases judge a <;> rfl

end Sequencing

/-- A command that has no encoding reaches no device. -/
theorem submit_of_frame_error {σ : Type} [Device σ] {tag : UInt16} {ordinal : UInt32}
    {input : List Field} {kinds : List FieldKind} {initial : FieldKind.Values kinds}
    {error : Error} (h : CommandHeader.frame tag ordinal input = .error error)
    (client : Client σ) :
    submit tag ordinal input kinds initial client = some (.error error, client) := by
  simp only [submit, submitInto, h, Option.map_some, Received.toExcept, Except.map]

/-- A command is written and its answer read, and the rest is up to the answer. -/
theorem submitInto_of_frame {σ : Type} [Device σ] {tag : UInt16} {ordinal : UInt32}
    {input : List Field} {kinds : List FieldKind} {targets : FieldKind.Values kinds}
    {request : Bytes} (h : CommandHeader.frame tag ordinal input = .ok request)
    (client : Client σ) :
    submitInto tag ordinal input kinds targets client =
      (transfer request client).bind fun (answer, after) =>
        match answer with
        | .error error => some (⟨targets, .error error⟩, after)
        | .ok bytes => (receive tag kinds targets bytes).map (·, after) := by
  unfold submitInto
  split
  · rename_i hframe
    cases h.symm.trans hframe
  · rename_i hframe
    cases h.symm.trans hframe
    refine congrArg (Option.bind _) (funext fun (answer, after) => ?_)
    cases answer with
    | error error => rfl
    | ok bytes => exact (Option.map_eq_bind ..).symm

theorem submit_of_frame {σ : Type} [Device σ] {tag : UInt16} {ordinal : UInt32}
    {input : List Field} {kinds : List FieldKind} {initial : FieldKind.Values kinds}
    {request : Bytes} (h : CommandHeader.frame tag ordinal input = .ok request)
    (client : Client σ) :
    submit tag ordinal input kinds initial client =
      (transfer request client).bind fun (answer, after) =>
        match answer with
        | .error error => some (.error error, after)
        | .ok bytes =>
          (receive tag kinds initial bytes).map fun received => (received.toExcept, after) := by
  rw [submit, submitInto_of_frame h]
  cases transfer request client with
  | none => rfl
  | some outcome =>
    obtain ⟨_ | bytes, after⟩ := outcome
    · rfl
    · simp only [Option.bind_some, Option.map_map]
      rfl

section Simulated

variable {tag : UInt16} {ordinal : UInt32} {input : List Field} {kinds : List FieldKind}
  {request : Bytes}

/-- The simulator takes the whole command, and its answer is read once and cut to what the client
can hold; there is no outcome if it halts, or if no buffer can have that size. -/
theorem transfer_simulator (request : Bytes) (client : Client Simulator) :
    transfer request client =
      if client.maxResponse < bufferLimit then
        (client.device.execute request).map fun (answer, sim) =>
          (.ok (answer.take client.maxResponse),
            { client with device := { sim with pending := none } })
      else
        none := by
  obtain ⟨device, maxResponse⟩ := client
  cases hexecute : device.execute request with
  | none =>
    have hsend : send request (⟨device, maxResponse⟩ : Client Simulator) = none := by
      simp only [send, Device.write, hexecute, Option.map_none]
    rw [transfer, bind_of_none hsend, Option.map_none, ite_self]
  | some outcome =>
    obtain ⟨answer, sim⟩ := outcome
    have hsend : send request (⟨device, maxResponse⟩ : Client Simulator) =
        some (.ok request.length, ⟨{ sim with pending := some answer }, maxResponse⟩) := by
      simp only [send, Device.write, hexecute, Option.map_some, Except.mapError]
    have hget : ∀ client : Client Simulator,
        (get : Exchange Simulator (Client Simulator)) client = some (.ok client, client) :=
      fun _ => rfl
    rw [transfer, bind_of_ok hsend, if_pos rfl, bind_of_ok (hget _)]
    rfl

theorem submitInto_simulator (h : CommandHeader.frame tag ordinal input = .ok request)
    (targets : FieldKind.Values kinds) (client : Client Simulator) :
    submitInto tag ordinal input kinds targets client =
      if client.maxResponse < bufferLimit then
        (client.device.execute request).bind fun (answer, sim) =>
          (receive tag kinds targets (answer.take client.maxResponse)).map
            (·, { client with device := { sim with pending := none } })
      else
        none := by
  rw [submitInto_of_frame h, transfer_simulator]
  split
  · cases client.device.execute request <;> rfl
  · rfl

theorem submit_simulator {initial : FieldKind.Values kinds}
    (h : CommandHeader.frame tag ordinal input = .ok request) (client : Client Simulator) :
    submit tag ordinal input kinds initial client =
      if client.maxResponse < bufferLimit then
        (client.device.execute request).bind fun (answer, sim) =>
          (receive tag kinds initial (answer.take client.maxResponse)).map fun received =>
            (received.toExcept, { client with device := { sim with pending := none } })
      else
        none := by
  rw [submit_of_frame h, transfer_simulator]
  split
  · cases client.device.execute request <;> rfl
  · rfl

end Simulated

end Client

end TrustedModule
