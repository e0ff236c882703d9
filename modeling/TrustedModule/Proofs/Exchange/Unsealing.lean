import TrustedModule.Proofs.Exchange.Handlers
import TrustedModule.Proofs.Exchange.Submission
import TrustedModule.Proofs.Wire.Absorption

/-!
# What unsealing accepts

The secret in the answer to an Unseal command is a remainder: it is what lies between its count and
the two blocks at the end. Only afterwards is its length compared with the count. So the handler
accepts a body if and only if the count is the length of the body less the count and the blocks, and
then the secret is what was counted; every other body is refused, for want of the count, for want of
the blocks, or because the two lengths differ.
-/

set_option autoImplicit false

namespace TrustedModule

theorem Buffer.readU32_of_lt {buffer : Buffer} (h : buffer.remaining < 4) :
    readU32 buffer = (.error (.underflow 4 buffer.remaining), buffer) :=
  bind_of_error (bind_of_error (readBlock_of_lt h))

/-! ## Blocks -/

/-- The block is what the bytes say: a nonce, a flag that every byte but 0 sets, and a digest. -/
def ResponseAuth.ReadFrom (block : ResponseAuth) (bytes : Bytes) : Prop :=
  ∃ flag : UInt8, bytes = block.nonceEven.bytes ++ [flag] ++ block.auth.bytes ∧
    block.continueAuthSession = (flag != 0)

namespace ResponseAuth

open Buffer Filled

theorem ReadFrom.length_eq {block : ResponseAuth} {bytes : Bytes} (h : block.ReadFrom bytes) :
    bytes.length = wireLength := by
  obtain ⟨flag, rfl, _⟩ := h
  simp [wireLength]

/-- What is taken for a block is what the block says. -/
theorem readFrom_of_fill {target value : (Wire.layout ResponseAuth).Value} {buffer after : Buffer}
    (h : (Wire.layout ResponseAuth).fill target buffer = ⟨value, .ok (), after⟩) :
    ∃ bytes, Took buffer after bytes ∧ (Wire.ofValue value : ResponseAuth).ReadFrom bytes := by
  obtain ⟨nonce, continued, auth, _⟩ := value
  obtain ⟨behindNonce, hnonce, h⟩ := andThen_eq_ok h
  obtain ⟨behindFlag, hflag, h⟩ := andThen_eq_ok h
  obtain ⟨behindAuth, hauth, h⟩ := andThen_eq_ok h
  cases h
  obtain ⟨flag, rfl, htook⟩ := took_readFlag (overwrite_eq_ok hflag)
  exact ⟨_, ((took_readBlock (overwrite_eq_ok hnonce)).trans htook).trans
    (took_readBlock (overwrite_eq_ok hauth)), flag, rfl, rfl⟩

/-- Two blocks that use up the buffer are read from the halves of it. -/
theorem readFrom_of_fillEach {targets values : FieldKind.Values [.ofWire ResponseAuth,
      .ofWire ResponseAuth]} {last : Bytes}
    (h : FieldKind.fillEach [.ofWire ResponseAuth, .ofWire ResponseAuth] targets (ofBytes last) =
      ⟨values, .ok (), ⟨last, []⟩⟩) :
    ∃ first second, last = first ++ second ∧ (Wire.ofValue values.1 : ResponseAuth).ReadFrom first ∧
      (Wire.ofValue values.2.1 : ResponseAuth).ReadFrom second := by
  obtain ⟨target, target', _⟩ := targets
  obtain ⟨value, value', _⟩ := values
  obtain ⟨middle, hfirst, h⟩ := andThen_eq_ok h
  obtain ⟨stop, hsecond, h⟩ := andThen_eq_ok h
  cases h
  obtain ⟨first, htook, hread⟩ := readFrom_of_fill hfirst
  obtain ⟨second, htook', hread'⟩ := readFrom_of_fill hsecond
  refine ⟨first, second, ?_, hread, hread'⟩
  have hahead := (htook.trans htook').1
  rwa [List.append_nil] at hahead

end ResponseAuth

/-! ## Bodies -/

namespace Call

open Answer Buffer FieldKind

/-- What the handler makes of the body of an answer. -/
def readBody (call : Call) (body : Bytes) : Except Error call.Result :=
  (fillAll call.kinds call.initial (ofBytes body)).toExcept.bind call.finish

/-- A good answer with a body is judged by its body. -/
theorem judge_eq_readBody {call : Call} {header body tail : Bytes}
    (hsucceeds : Succeeds call.command.tag (header ++ body ++ tail)) (hheader : header.length = 10)
    (hdeclared : declared (header ++ body ++ tail) = 10 + body.length) (hbody : body ≠ []) :
    call.judge (.ok (header ++ body ++ tail)) = some (call.readBody body) := by
  have hmore : 10 < declared (header ++ body ++ tail) := by
    have := List.length_pos_iff.mpr hbody
    omega
  have hreceive : receive call.command.tag call.kinds call.initial (header ++ body ++ tail) =
      some (.ofFilled 0 (fillAll call.kinds call.initial (ofBytes body))) :=
    (Judged.filled header body tail hsucceeds hmore rfl hheader hdeclared.symm).eq_receive
  rw [judge, Client.judge, hreceive, Option.map_some, Received.toExcept_ofFilled, readBody]
  cases (fillAll call.kinds call.initial (ofBytes body)).toExcept <;> rfl

section Reading

variable {call : Call} {body : Bytes}

theorem readBody_of_error {error : Error}
    (h : (fillAll call.kinds call.initial (ofBytes body)).result = .error error) :
    call.readBody body = .error error := by
  rw [readBody, Filled.toExcept, h]
  rfl

theorem readBody_of_ok {values : Values call.kinds} {after : Buffer}
    (h : fillAll call.kinds call.initial (ofBytes body) = ⟨values, .ok (), after⟩) :
    call.readBody body = call.finish values := by
  rw [readBody, h]
  rfl

end Reading

section Unsealing

variable (keyHandle : Handle) (stored : StoredData)

theorem readBody_of_no_count {body : Bytes} (h : body.length < 4) :
    (unsealData keyHandle stored).readBody body = .error (.underflow 4 body.length) := by
  apply readBody_of_error
  change ((Filled.overwrite 0 readU32 (ofBytes body)).andThen _ _).result = _
  rw [Filled.overwrite, readU32_of_lt (show (ofBytes body).remaining < 4 from h)]
  rfl

/-- Behind the count come the remainder and the two blocks. -/
theorem fillAll_counted (count : UInt32) (rest : Bytes) :
    fillAll (unsealData keyHandle stored).kinds (unsealData keyHandle stored).initial
        (ofBytes (bigEndian 4 count.toNat ++ rest)) =
      (fillEach [.remainder, .ofWire ResponseAuth, .ofWire ResponseAuth]
        ([], Wire.toValue (default : ResponseAuth), Wire.toValue (default : ResponseAuth), ())
        ⟨bigEndian 4 count.toNat, rest⟩).map (count, ·) := by
  change (Filled.overwrite 0 readU32 (ofBytes (bigEndian 4 count.toNat ++ rest))).andThen _ _ = _
  rw [Filled.overwrite, ofBytes, reads_u32 count [] rest]
  rfl

theorem readBody_of_no_blocks (count : UInt32) {rest : Bytes} (h : rest.length < 82) :
    (unsealData keyHandle stored).readBody (bigEndian 4 count.toNat ++ rest) =
      .error (.underflow 82 rest.length) := by
  apply readBody_of_error
  rw [fillAll_counted]
  change ((fillRemainder 82 [] ⟨bigEndian 4 count.toNat, rest⟩).andThen _ _).result = _
  rw [fillRemainder_of_lt (show (Buffer.mk (bigEndian 4 count.toNat) rest).remaining < 82 from h)]
  rfl

/-- With room for the blocks the two lengths decide. -/
theorem readBody_of_blocks (count : UInt32) {rest : Bytes} (h : 82 ≤ rest.length) :
    ∃ secret key data keyResponse dataResponse, rest = secret ++ (key ++ data) ∧
      keyResponse.ReadFrom key ∧ dataResponse.ReadFrom data ∧
      (unsealData keyHandle stored).readBody (bigEndian 4 count.toNat ++ rest) =
        if count.toNat = secret.length then .ok ⟨secret, keyResponse, dataResponse⟩
        else .error (.layout (.secretLength count secret.length)) := by
  have hfixed : ∀ kind ∈ [FieldKind.ofWire ResponseAuth, .ofWire ResponseAuth],
      kind.fixedSize ≠ none := by decide
  obtain ⟨secret, last, values, hrest, _, hlast, hwhole⟩ :=
    @fillEach_remainder _ ⟨bigEndian 4 count.toNat, rest⟩ hfixed []
      (Wire.toValue (default : ResponseAuth), Wire.toValue (default : ResponseAuth), ()) h
  obtain ⟨key, data, rfl, hkey, hdata⟩ := ResponseAuth.readFrom_of_fillEach hlast
  refine ⟨secret, key, data, _, _, hrest, hkey, hdata, ?_⟩
  have hfill := fillAll_counted keyHandle stored count rest
  rw [hwhole] at hfill
  exact readBody_of_ok hfill

end Unsealing

end Call

namespace Client

open Answer

/-- What an Unseal command comes to, by the body of its answer. -/
structure Unseals (body : Bytes) (outcome : Except Error UnsealResult) : Prop where
  ok_iff : (∃ result, outcome = .ok result) ↔
    86 ≤ body.length ∧ number 0 4 body = body.length - 86
  /-- The secret has the length that was declared, and lies between its count and the blocks. -/
  laid_out : ∀ result, outcome = .ok result → number 0 4 body = result.secret.length ∧
    ∃ key data, body = bigEndian 4 result.secret.length ++ result.secret ++ key ++ data ∧
      result.keyResponse.ReadFrom key ∧ result.dataResponse.ReadFrom data
  without_count : body.length < 4 → outcome = .error (.underflow 4 body.length)
  without_blocks : 4 ≤ body.length → body.length < 86 →
    outcome = .error (.underflow 82 (body.length - 4))
  miscounted : 86 ≤ body.length → number 0 4 body ≠ body.length - 86 →
    ∃ count : UInt32, count.toNat = number 0 4 body ∧
      outcome = .error (.layout (.secretLength count (body.length - 86)))

section Outcomes

variable {body : Bytes}

theorem unseals_of_no_count (h : body.length < 4) :
    Unseals body (.error (.underflow 4 body.length)) := by
  constructor
  case ok_iff => exact ⟨by rintro ⟨_, ⟨⟩⟩, fun hok => absurd hok.1 (by omega)⟩
  case laid_out => exact fun _ hok => nomatch hok
  case without_count => exact fun _ => rfl
  case without_blocks => exact fun hcounted => absurd h (Nat.not_lt.mpr hcounted)
  case miscounted => exact fun hroom => absurd h (by omega)

theorem unseals_of_no_blocks (hcounted : 4 ≤ body.length) (h : body.length < 86) :
    Unseals body (.error (.underflow 82 (body.length - 4))) := by
  constructor
  case ok_iff => exact ⟨by rintro ⟨_, ⟨⟩⟩, fun hok => absurd h (Nat.not_lt.mpr hok.1)⟩
  case laid_out => exact fun _ hok => nomatch hok
  case without_count => exact fun hshort => absurd hcounted (Nat.not_le.mpr hshort)
  case without_blocks => exact fun _ _ => rfl
  case miscounted => exact fun hroom => absurd h (Nat.not_lt.mpr hroom)

theorem unseals_of_blocks {count : UInt32} {secret key data : Bytes}
    {keyResponse dataResponse : ResponseAuth} (hcount : count.toNat = number 0 4 body)
    (hbody : body = bigEndian 4 count.toNat ++ (secret ++ (key ++ data)))
    (hkey : keyResponse.ReadFrom key) (hdata : dataResponse.ReadFrom data) :
    Unseals body (if count.toNat = secret.length then .ok ⟨secret, keyResponse, dataResponse⟩
      else .error (.layout (.secretLength count secret.length))) := by
  have hlength : body.length = 86 + secret.length := by
    rw [hbody]
    simp only [List.length_append, length_bigEndian, hkey.length_eq, hdata.length_eq,
      ResponseAuth.wireLength]
    omega
  have hsecret : body.length - 86 = secret.length := by omega
  constructor
  case ok_iff =>
    rw [hsecret, ← hcount]
    split
    · rename_i hsame
      exact ⟨fun _ => ⟨by omega, hsame⟩, fun _ => ⟨_, rfl⟩⟩
    · rename_i hdiffers
      exact ⟨by rintro ⟨_, ⟨⟩⟩, fun hok => absurd hok.2 hdiffers⟩
  case laid_out =>
    intro result hresult
    split at hresult
    · rename_i hsame
      cases hresult
      refine ⟨hcount.symm.trans hsame, key, data, ?_, hkey, hdata⟩
      rw [← hsame, List.append_assoc, List.append_assoc]
      exact hbody
    · cases hresult
  case without_count => exact fun hshort => absurd hlength (by omega)
  case without_blocks => exact fun _ hshort => absurd hlength (by omega)
  case miscounted =>
    intro _ hdiffers
    rw [hsecret, ← hcount] at hdiffers
    exact ⟨count, hcount, by rw [if_neg hdiffers, hsecret]⟩

theorem exists_count (h : 4 ≤ body.length) :
    ∃ count : UInt32, bigEndian 4 count.toNat = body.take 4 ∧ count.toNat = number 0 4 body := by
  have hbound : number 0 4 body < 256 ^ 4 := number_lt h
  exact ⟨UInt32.ofNat (ofBigEndian (body.take 4)),
    bigEndian_ofBigEndian_u32 (List.length_take_of_le h), UInt32.toNat_ofNat_of_lt' hbound⟩

theorem unseals_readBody (keyHandle : Handle) (stored : StoredData) (body : Bytes) :
    Unseals body ((Call.unsealData keyHandle stored).readBody body) := by
  by_cases hcounted : 4 ≤ body.length
  · obtain ⟨count, hcount, hnumber⟩ := exists_count hcounted
    have hsplit : body = bigEndian 4 count.toNat ++ body.drop 4 := by
      rw [hcount, List.take_append_drop]
    have hdrop : (body.drop 4).length = body.length - 4 := List.length_drop
    by_cases hblocks : body.length < 86
    · have hread := Call.readBody_of_no_blocks keyHandle stored count
        (show (body.drop 4).length < 82 by omega)
      rw [← hsplit, hdrop] at hread
      rw [hread]
      exact unseals_of_no_blocks hcounted hblocks
    · obtain ⟨secret, key, data, keyResponse, dataResponse, hrest, hkey, hdata, hread⟩ :=
        Call.readBody_of_blocks keyHandle stored count (show 82 ≤ (body.drop 4).length by omega)
      rw [← hsplit] at hread
      rw [hread]
      exact unseals_of_blocks hnumber (hrest ▸ hsplit) hkey hdata
  · have hshort : body.length < 4 := Nat.lt_of_not_le hcounted
    rw [Call.readBody_of_no_count keyHandle stored hshort]
    exact unseals_of_no_count hshort

end Outcomes

/-- Unseal accepts exactly the bodies in which the count of the secret is right. Whatever the
device, and whatever it is asked to unseal: of a good answer to the command, with a body that is not
empty, the handler makes what the body says. -/
theorem unsealData_answered {σ : Type} [Device σ] {keyHandle : Handle} {stored : StoredData}
    {keyAuth dataAuth : CommandAuth} {request header body tail : Bytes}
    {client sent after : Client σ}
    (hframe : CommandHeader.frame Tag.request2 Ordinal.unsealData (.u32 keyHandle ::
      Parameters.unsealData stored ++ [.ofWire keyAuth, .ofWire dataAuth]) = .ok request)
    (hsend : send request client = some (.ok request.length, sent))
    (hread : readUpTo sent.maxResponse sent = some (.ok (header ++ body ++ tail), after))
    (hsucceeds : Succeeds Tag.request2 (header ++ body ++ tail)) (hheader : header.length = 10)
    (hdeclared : declared (header ++ body ++ tail) = 10 + body.length) (hbody : body ≠ []) :
    ∃ outcome, unsealData keyHandle stored keyAuth dataAuth client = some (outcome, after) ∧
      Unseals body outcome := by
  refine ⟨_, ?_, unseals_readBody keyHandle stored body⟩
  have hperform := @Call.perform_of_request σ _ (.unsealData keyHandle stored) [keyAuth, dataAuth]
    request rfl hframe client
  have hjudge := @Call.judge_eq_readBody (.unsealData keyHandle stored) header body tail hsucceeds
    hheader hdeclared hbody
  rw [transfer_answered hsend hread, Option.bind_some] at hperform
  dsimp only at hperform
  rw [hjudge] at hperform
  exact hperform

/-- A secret of two bytes, in an answer with a set flag that is not 1 and a tail. -/
theorem unsealData_answered_flag : ∃ result after,
    unsealData 7 default default default (ofAnswer ([0, 0xC6, 0, 0, 0, 98, 0, 0, 0, 0] ++
        ([0, 0, 0, 2, 8, 9] ++ List.replicate 20 1 ++ [7] ++ List.replicate 61 2) ++ [5])) =
      some (.ok result, after) ∧
    Unseals ([0, 0, 0, 2, 8, 9] ++ List.replicate 20 1 ++ [7] ++ List.replicate 61 2)
      (.ok result) := by
  obtain ⟨outcome, hperform, hunseals⟩ := @unsealData_answered PlaybackDevice _ 7 default default
    default _ [0, 0xC6, 0, 0, 0, 98, 0, 0, 0, 0]
    ([0, 0, 0, 2, 8, 9] ++ List.replicate 20 1 ++ [7] ++ List.replicate 61 2) [5]
    (ofAnswer ([0, 0xC6, 0, 0, 0, 98, 0, 0, 0, 0] ++
      ([0, 0, 0, 2, 8, 9] ++ List.replicate 20 1 ++ [7] ++ List.replicate 61 2) ++ [5])) _ _
    rfl rfl rfl ⟨by decide, rfl, rfl⟩ rfl rfl (by decide)
  obtain ⟨result, rfl⟩ := hunseals.ok_iff.mpr ⟨by decide, rfl⟩
  exact ⟨result, _, hperform, hunseals⟩

end Client

end TrustedModule
