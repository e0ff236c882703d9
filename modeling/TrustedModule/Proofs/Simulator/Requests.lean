import TrustedModule.Proofs.Simulator.Authorization
import TrustedModule.Proofs.Wire.Reading

/-!
# Requests of authorized commands

The body of an authorized command is the key handle, the parameters and one block for each session.
The simulator reads back from it exactly these parts, and it carries as many blocks as its ordinal
needs.
-/

set_option autoImplicit false

namespace TrustedModule

namespace AuthorizedCommand

/-- The tag that announces the blocks of the command. -/
def tag : AuthorizedCommand → UInt16
  | unsealData => Tag.request2
  | _ => Tag.request1

/-- The body of the command. -/
def body (keyHandle : Handle) (params : Bytes) (blocks : List CommandAuth) : Bytes :=
  bigEndian 4 keyHandle.toNat ++ params ++ blocks.flatMap CommandAuth.encoding

theorem authCount_le (command : AuthorizedCommand) : command.authCount ≤ 2 := by
  cases command <;> decide

theorem authCount_pos (command : AuthorizedCommand) : 0 < command.authCount := by
  cases command <;> decide

theorem authCount_tag (command : AuthorizedCommand) :
    Tag.authCount command.tag = command.authCount := by
  cases command <;> rfl

end AuthorizedCommand

theorem Operation.ofOrdinal?_ordinal (command : AuthorizedCommand) :
    ofOrdinal? command.ordinal = some (.authorized command) := by
  cases command <;> rfl

theorem Operation.ofOrdinal?_eq_authorized {ordinal : UInt32} {command : AuthorizedCommand} :
    ofOrdinal? ordinal = some (.authorized command) ↔ ordinal = command.ordinal := by
  constructor
  · intro h
    unfold ofOrdinal? at h
    repeat' split at h
    all_goals cases h <;> assumption
  · rintro rfl
    exact ofOrdinal?_ordinal command

theorem CommandAuth.length_encodings (blocks : List CommandAuth) :
    (blocks.flatMap encoding).length = blocks.length * wireLength := by
  induction blocks with
  | nil => simp
  | cons block blocks ih =>
    rw [List.flatMap_cons, List.length_append, ih, length_encoding, List.length_cons,
      Nat.succ_mul, Nat.add_comm]

theorem ResponseAuth.length_encodings (blocks : List ResponseAuth) :
    (blocks.flatMap encoding).length = blocks.length * wireLength := by
  induction blocks with
  | nil => simp
  | cons block blocks ih =>
    rw [List.flatMap_cons, List.length_append, ih, length_encoding, List.length_cons,
      Nat.succ_mul, Nat.add_comm]

namespace Request

theorem length_decodeAuths {count : Nat} {bytes : Bytes} {auths : List CommandAuth}
    (h : decodeAuths count bytes = .ok auths) : auths.length = count := by
  induction count generalizing bytes auths with
  | zero =>
    cases h
    rfl
  | succ count ih =>
    unfold decodeAuths at h
    obtain ⟨auth, _, h⟩ := bind_eq_ok.mp h
    obtain ⟨rest, hrest, h⟩ := bind_eq_ok.mp h
    cases h
    rw [List.length_cons, ih hrest]

theorem decodeAuths_of_length {count : Nat} {bytes : Bytes}
    (h : count * CommandAuth.wireLength ≤ bytes.length) :
    ∃ auths, decodeAuths count bytes = .ok auths := by
  induction count generalizing bytes with
  | zero => exact ⟨[], rfl⟩
  | succ count ih =>
    have hsize : (Wire.layout CommandAuth).fixedSize = some CommandAuth.wireLength := rfl
    rw [Nat.succ_mul] at h
    obtain ⟨auth, hauth⟩ := Wire.decode_of_length hsize (Nat.le_trans (Nat.le_add_left _ _) h)
    obtain ⟨auths, hauths⟩ := @ih (bytes.drop CommandAuth.wireLength) (by
      rw [List.length_drop]
      omega)
    refine ⟨auth :: auths, ?_⟩
    unfold decodeAuths
    rw [hauth, hauths]
    rfl

theorem decodeAuths_encodings (blocks : List CommandAuth) :
    decodeAuths blocks.length (blocks.flatMap CommandAuth.encoding) = .ok blocks := by
  induction blocks with
  | nil => rfl
  | cons block blocks ih =>
    have hdecode := Wire.decode_append (CommandAuth.encode_eq block)
      (blocks.flatMap CommandAuth.encoding)
    have hdrop : (block.encoding ++ blocks.flatMap CommandAuth.encoding).drop
        CommandAuth.wireLength = blocks.flatMap CommandAuth.encoding :=
      List.drop_left' (CommandAuth.length_encoding block)
    rw [List.length_cons, List.flatMap_cons]
    unfold decodeAuths
    rw [hdecode, hdrop, ih]
    rfl

/-! ### Authorized payloads -/

/-- The payload falls apart where the length of its trailer says, and all its parts are there. -/
theorem decodeAuthorized_split {command : AuthorizedCommand} {trailer : Bytes}
    (htrailer : trailer.length = command.authCount * CommandAuth.wireLength) (keyHandle : Handle)
    (params : Bytes) :
    decodeAuthorized command (bigEndian 4 keyHandle.toNat ++ params ++ trailer) =
      some ((decodeAuths command.authCount trailer).map fun auths =>
        .authorized command keyHandle params auths) := by
  have hhead : (bigEndian 4 keyHandle.toNat ++ params).length = 4 + params.length := by
    rw [List.length_append, length_bigEndian]
  have hlength : (bigEndian 4 keyHandle.toNat ++ params ++ trailer).length =
      4 + params.length + command.authCount * CommandAuth.wireLength := by
    rw [List.length_append, hhead, htrailer]
  have hhandle : entries? 4 (bigEndian 4 keyHandle.toNat ++ params) =
      some (bigEndian 4 keyHandle.toNat) := by
    rw [entries?_eq (hhead ▸ Nat.le_add_right ..), List.take_left' (length_bigEndian ..)]
  have hparams : slice? 4 (bigEndian 4 keyHandle.toNat ++ params).length
      (bigEndian 4 keyHandle.toNat ++ params) = some params := by
    rw [slice?_length (hhead ▸ Nat.le_add_right ..), List.drop_left' (length_bigEndian ..)]
  unfold decodeAuthorized
  simp only [hlength, difference?_add, splitAt?_append hhead, Option.bind_eq_bind, Option.bind_some]
  rw [if_neg (by omega)]
  cases decodeAuths command.authCount trailer with
  | error code => rfl
  | ok auths =>
    simp only [hhandle, hparams, Option.bind_some, ofBigEndian_toNat, UInt32.ofNat_toNat]
    rfl

theorem exists_payload {payload : Bytes} {count : Nat} (h : 4 + count ≤ payload.length) :
    ∃ (keyHandle : Handle) (params trailer : Bytes),
      payload = bigEndian 4 keyHandle.toNat ++ params ++ trailer ∧ trailer.length = count := by
  have hkey : (payload.take 4).length = 4 := List.length_take_of_le (by omega)
  refine ⟨UInt32.ofNat (ofBigEndian (payload.take 4)),
    (payload.drop 4).take (payload.length - 4 - count),
    (payload.drop 4).drop (payload.length - 4 - count), ?_, ?_⟩
  · rw [bigEndian_ofBigEndian_u32 hkey, List.append_assoc, List.take_append_drop,
      List.take_append_drop]
  · simp only [List.length_drop]
    omega

theorem decodeAuthorized_of_lt {command : AuthorizedCommand} {payload : Bytes}
    (h : payload.length < 4 + command.authCount * CommandAuth.wireLength) :
    decodeAuthorized command payload = some (.error .badParameter) :=
  if_pos h

/-- An authorized command can be read as soon as its payload has room for the key handle and the
blocks, whatever bytes are in it. -/
theorem decodeAuthorized_of_le {command : AuthorizedCommand} {payload : Bytes}
    (h : 4 + command.authCount * CommandAuth.wireLength ≤ payload.length) :
    ∃ keyHandle params trailer auths, payload = bigEndian 4 keyHandle.toNat ++ params ++ trailer ∧
      trailer.length = command.authCount * CommandAuth.wireLength ∧
      decodeAuths command.authCount trailer = .ok auths ∧
      decodeAuthorized command payload =
        some (.ok (.authorized command keyHandle params auths)) := by
  obtain ⟨keyHandle, params, trailer, rfl, htrailer⟩ := exists_payload h
  obtain ⟨auths, hauths⟩ := decodeAuths_of_length htrailer.ge
  refine ⟨keyHandle, params, trailer, auths, rfl, htrailer, hauths, ?_⟩
  rw [decodeAuthorized_split htrailer, hauths]
  rfl

/-- Either the payload is too short, or it is read as a command with as many blocks as it needs. -/
theorem decodeAuthorized_cases (command : AuthorizedCommand) (payload : Bytes) :
    decodeAuthorized command payload = some (.error .badParameter) ∨
      ∃ keyHandle params auths, auths.length = command.authCount ∧
        decodeAuthorized command payload =
          some (.ok (.authorized command keyHandle params auths)) := by
  rcases Nat.lt_or_ge payload.length (4 + command.authCount * CommandAuth.wireLength) with h | h
  · exact .inl (decodeAuthorized_of_lt h)
  · obtain ⟨keyHandle, params, _, auths, _, _, hauths, hdecode⟩ := decodeAuthorized_of_le h
    exact .inr ⟨keyHandle, params, auths, length_decodeAuths hauths, hdecode⟩

theorem decodeAuthorized_eq_ok {command : AuthorizedCommand} {payload : Bytes} {request : Request}
    (h : decodeAuthorized command payload = some (.ok request)) :
    ∃ keyHandle params auths, request = .authorized command keyHandle params auths ∧
      auths.length = command.authCount := by
  obtain hshort | ⟨keyHandle, params, auths, hcount, hdecode⟩ :=
    decodeAuthorized_cases command payload
  · cases hshort.symm.trans h
  · cases hdecode.symm.trans h
    exact ⟨keyHandle, params, auths, rfl, hcount⟩

theorem decodeAuthorized_eq_error {command : AuthorizedCommand} {payload : Bytes}
    {code : ReturnCode} (h : decodeAuthorized command payload = some (.error code)) :
    code = .badParameter := by
  obtain hshort | ⟨keyHandle, params, auths, _, hdecode⟩ := decodeAuthorized_cases command payload
  · cases hshort.symm.trans h
    rfl
  · cases hdecode.symm.trans h

/-! ### All payloads -/

/-- With the ordinal of an authorized command, only such a command can be read. -/
theorem decode_ordinal (command : AuthorizedCommand) (tag : UInt16) (payload : Bytes) :
    decode tag command.ordinal payload =
      if Tag.authCount tag ≠ command.authCount then some (.error .badTag)
      else decodeAuthorized command payload := by
  unfold decode
  rw [Operation.ofOrdinal?_ordinal]
  rfl

/-- No payload makes the simulator reach for bytes that are not there. -/
theorem exists_decode (tag : UInt16) (ordinal : UInt32) (payload : Bytes) :
    ∃ result, decode tag ordinal payload = some result := by
  unfold decode
  split
  · exact ⟨_, rfl⟩
  · rename_i operation _
    split
    · exact ⟨_, rfl⟩
    · cases operation with
      | oiap | osap | flushSpecific | pcrRead => exact ⟨_, rfl⟩
      | authorized command =>
        obtain hshort | ⟨_, _, _, _, hdecode⟩ := decodeAuthorized_cases command payload
        · exact ⟨_, hshort⟩
        · exact ⟨_, hdecode⟩

/-- Parameters that are read are the result of the reader on them. -/
theorem readParams_eq_ok {α : Type} {read : BufferM α} {params : Bytes} {a : α}
    (h : readParams read params = .ok a) :
    ∃ after, read (Buffer.ofBytes params) = (.ok a, after) := by
  unfold readParams orBadParameter at h
  cases hread : read (Buffer.ofBytes params) with
  | mk result after =>
    rw [hread] at h
    cases result with
    | error error => cases h
    | ok value =>
      cases h
      exact ⟨after, rfl⟩

theorem readParams_append {α : Type} {read : BufferM α} {a : α} {params : Bytes}
    (h : Buffer.Reads read a params) (rest : Bytes) :
    readParams read (params ++ rest) = .ok a := by
  unfold readParams Buffer.ofBytes
  rw [h [] rest]
  rfl

/-- Whatever is read as an authorized command has its ordinal, and a tag for its blocks. -/
theorem decode_eq_authorized {tag : UInt16} {ordinal : UInt32} {payload params : Bytes}
    {command : AuthorizedCommand} {keyHandle : Handle} {auths : List CommandAuth} :
    decode tag ordinal payload = some (.ok (.authorized command keyHandle params auths)) ↔
      ordinal = command.ordinal ∧ Tag.authCount tag = command.authCount ∧
        decodeAuthorized command payload =
          some (.ok (.authorized command keyHandle params auths)) := by
  constructor
  · intro h
    unfold decode at h
    split at h
    · cases h
    · rename_i operation hoperation
      split at h
      · cases h
      · rename_i htag
        cases operation with
        | oiap => cases h
        | osap =>
          dsimp only at h
          cases hosap : orBadParameter (Wire.decode OsapCommand payload) <;>
            rw [hosap] at h <;> cases h
        | flushSpecific =>
          obtain ⟨after, hread⟩ := readParams_eq_ok (Option.some.inj h)
          obtain ⟨handle, middle, _, hread⟩ := Buffer.bind_eq_ok hread
          obtain ⟨resource, last, _, hread⟩ := Buffer.bind_eq_ok hread
          cases hread
        | pcrRead =>
          obtain ⟨after, hread⟩ := readParams_eq_ok (Option.some.inj h)
          obtain ⟨index, last, _, hread⟩ := Buffer.bind_eq_ok hread
          cases hread
        | authorized other =>
          obtain ⟨_, _, _, heq, _⟩ := decodeAuthorized_eq_ok h
          cases heq
          exact ⟨Operation.ofOrdinal?_eq_authorized.mp hoperation, not_not.mp htag, h⟩
  · rintro ⟨rfl, htag, h⟩
    rw [decode_ordinal, if_neg (not_not_intro htag), h]

/-- Whatever is read as an authorized command carries the blocks that the command needs. -/
theorem length_of_decode {tag : UInt16} {ordinal : UInt32} {payload params : Bytes}
    {command : AuthorizedCommand} {keyHandle : Handle} {auths : List CommandAuth}
    (h : decode tag ordinal payload = some (.ok (.authorized command keyHandle params auths))) :
    auths.length = command.authCount := by
  obtain ⟨_, _, _, heq, hlength⟩ := decodeAuthorized_eq_ok (decode_eq_authorized.mp h).2.2
  cases heq
  exact hlength

/-! ### Refusals -/

theorem orBadParameter_eq_error {α : Type} {result : Except Error α} {code : ReturnCode}
    (h : orBadParameter result = .error code) : code = .badParameter := by
  cases result with
  | error error =>
    cases h
    rfl
  | ok a => cases h

/-! ### Bodies that a client sends -/

/-- The simulator finds the parts of a body, wherever the parameters end. -/
theorem decode_body {command : AuthorizedCommand} {blocks : List CommandAuth}
    (hcount : blocks.length = command.authCount) (keyHandle : Handle) (params : Bytes) :
    decode command.tag command.ordinal (AuthorizedCommand.body keyHandle params blocks) =
      some (.ok (.authorized command keyHandle params blocks)) := by
  have htrailer : (blocks.flatMap CommandAuth.encoding).length =
      command.authCount * CommandAuth.wireLength := by
    rw [CommandAuth.length_encodings, hcount]
  rw [decode_ordinal, if_neg (not_not_intro command.authCount_tag), AuthorizedCommand.body,
    decodeAuthorized_split htrailer, ← hcount, decodeAuths_encodings]
  rfl

theorem decode_flushSpecific (handle resource : UInt32) (rest : Bytes) :
    decode Tag.request Ordinal.flushSpecific
        (bigEndian 4 handle.toNat ++ bigEndian 4 resource.toNat ++ rest) =
      some (.ok (.flushSpecific handle resource)) := by
  have hreads : Buffer.Reads (do return flushSpecific (← Buffer.readU32) (← Buffer.readU32))
      (flushSpecific handle resource)
      (bigEndian 4 handle.toNat ++ bigEndian 4 resource.toNat) :=
    (Buffer.reads_u32 handle).bind ((Buffer.reads_u32 resource).map (flushSpecific handle))
  exact congrArg some (readParams_append hreads rest)

end Request

namespace Simulator

/-! ## Return codes of refusals -/

theorem runSeal_eq_error {params : Bytes} {code : ReturnCode}
    (h : runSeal params = .error code) : code = .badParameter := by
  unfold runSeal at h
  rcases bind_eq_error.mp h with hread | ⟨stored, _, h⟩
  · exact Request.orBadParameter_eq_error hread
  · exact Request.orBadParameter_eq_error h

theorem runUnseal_eq_error {params : Bytes} {code : ReturnCode}
    (h : runUnseal params = .error code) : code = .badParameter ∨ code = .notSealedBlob := by
  unfold runUnseal at h
  rcases bind_eq_error.mp h with hread | ⟨stored, _, h⟩
  · exact .inl (Request.orBadParameter_eq_error hread)
  · split at h
    · exact .inl (Request.orBadParameter_eq_error h)
    · cases h
      exact .inr rfl

/-- What keeps a command from being done once it is authorized. -/
theorem perform_eq_error {command : AuthorizedCommand} {params : Bytes} {sim next : Simulator}
    {code : ReturnCode} (h : sim.perform command params = some (.error code, next)) :
    code = .badParameter ∨ code = .notSealedBlob := by
  cases command with
  | sealData =>
    obtain ⟨h, _⟩ := Prod.mk.inj (Option.some.inj h)
    exact .inl (runSeal_eq_error (map_eq_error h))
  | unsealData =>
    obtain ⟨h, _⟩ := Prod.mk.inj (Option.some.inj h)
    exact runUnseal_eq_error (map_eq_error h)
  | loadKey2 =>
    unfold perform at h
    dsimp only at h
    split at h
    · rename_i hdecode
      cases h
      exact .inl (Request.orBadParameter_eq_error hdecode)
    · cases h
  | getPubKey =>
    obtain ⟨h, _⟩ := Prod.mk.inj (Option.some.inj h)
    exact .inl (Request.orBadParameter_eq_error (map_eq_error h))
  | quote2 =>
    unfold perform at h
    dsimp only at h
    split at h
    · rename_i hread
      cases h
      exact .inl (Request.orBadParameter_eq_error hread)
    · obtain ⟨values, _, heq⟩ := Option.map_eq_some_iff.mp h
      obtain ⟨heq, _⟩ := Prod.mk.inj heq
      exact .inl (Request.orBadParameter_eq_error (map_eq_error heq))

theorem runAuthorized_ne_success {command : AuthorizedCommand} {keyHandle : Handle}
    {params : Bytes} {auths : List CommandAuth} {sim next : Simulator} {code : ReturnCode}
    (h : sim.runAuthorized command keyHandle params auths = some (.error code, next)) :
    code ≠ .success := by
  obtain ⟨hcode, _⟩ | hperform := runAuthorized_eq_error h
  · exact hcode
  · obtain rfl | rfl := perform_eq_error hperform <;> decide

end Simulator

end TrustedModule
