import TrustedModule.Proofs.Exchange.Handlers
import TrustedModule.Proofs.Exchange.Submission

/-!
# What handlers return

The caller checks a response over a list that it builds from what the handler returned, and never
sees the bytes that the device has authenticated. It need not: the returned handle, the encoding of
this list and the returned blocks are the body of the answer, byte for byte except for flags, up to
a tail that the handler did not read.
-/

set_option autoImplicit false

namespace TrustedModule

/-! ## Version blobs -/

theorem CapVersionFixed.length_flags (info : CapVersionFixed) :
    ((Wire.layout CapVersionFixed).flags (Wire.toValue info)).length = wireLength := rfl

theorem CapVersionFixed.not_mem_flags (info : CapVersionFixed) :
    true ∉ (Wire.layout CapVersionFixed).flags (Wire.toValue info) := by
  simp [Wire.layout, Wire.toValue, Layout.flags]

/-- A version blob is empty, or the fixed part and the vendor data behind it. -/
theorem CapVersionInfo.decode_eq_ok {bytes : Bytes} {capInfo : Option CapVersionInfo}
    (h : decode bytes = .ok capInfo) :
    (capInfo = none ↔ bytes = []) ∧
      ∀ info, capInfo = some info →
        ∃ fixed, Wire.encode info.fixed = .ok fixed ∧ fixed ++ info.vendorSpecific = bytes := by
  unfold decode at h
  split at h
  · rename_i hempty
    cases h
    exact ⟨⟨fun _ => List.isEmpty_iff.mp hempty, fun _ => rfl⟩, nofun⟩
  · rename_i hempty
    split at h
    · cases h
    · rename_i hlength
      obtain ⟨fixed, hdecode, rfl⟩ := map_eq_ok h
      refine ⟨⟨nofun, fun hnil => absurd (List.isEmpty_iff.mpr hnil) hempty⟩, ?_⟩
      rintro _ ⟨⟩
      obtain ⟨taken, tail, hsource, hspells⟩ := Wire.spelling_of_decode hdecode
      -- the fixed part is as long as the blob was cut to
      have hnil : tail = [] := by
        have htotal := congrArg List.length hsource
        rw [List.length_take_of_le (Nat.le_of_not_lt hlength), List.length_append,
          hspells.length_eq, CapVersionFixed.length_flags] at htotal
        exact List.eq_nil_of_length_eq_zero (by omega)
      rw [hnil, List.append_nil] at hsource
      refine ⟨taken, hspells.eq_of_not_mem (CapVersionFixed.not_mem_flags fixed), ?_⟩
      rw [← hsource, List.take_append_drop]

/-! ## Bodies -/

/-- A list that ends in blocks is read as its front, byte for byte, and the blocks. -/
theorem Field.split_blocks {front : List Field} {blocks : List ResponseAuth} {source : Bytes}
    (hflags : true ∉ flags front) (h : Spells (front ++ blocks.map .ofWire) source) :
    ∃ first second, source = first ++ second ∧ encodeEach front = .ok first ∧
      Spells (blocks.map .ofWire) second := by
  have heach : Spelling (flags (front ++ blocks.map .ofWire))
      (encodeEach (front ++ blocks.map .ofWire)) source := by
    obtain ⟨bytes, hbytes, _⟩ := Spelling.exists_encoded h
    have hsame := (encode_eq_ok.mp hbytes).2
    exact ⟨h.length_eq, (hsame.trans hbytes.symm).trans h.encoded_eq⟩
  obtain ⟨first, second, rfl, hfirst, hsecond⟩ := split_spelling heach
  rw [← encode_of_no_remainder (no_remainder_structures blocks)] at hsecond
  exact ⟨first, second, rfl, hfirst.eq_of_not_mem hflags, hsecond⟩

namespace Call

/-- The handles that the device does not authenticate. -/
def handles : (call : Call) → call.Result → Bytes
  | loadKey2 .., result => bigEndian 4 result.handle.toNat
  | _, _ => []

/-- What the handler returns for an answer without a body. -/
def blank : (call : Call) → call.Result
  | sealData .. => ⟨default, default⟩
  | unsealData .. => ⟨[], default, default⟩
  | loadKey2 .. => ⟨0, default⟩
  | getPubKey .. => ⟨default, default⟩
  | quote2 .. => ⟨default, none, [], [], default⟩

/-- The version information is what there is in the version blob. -/
def SplitsVersion : (call : Call) → call.Result → Prop
  | quote2 .., quote =>
    (quote.capInfo = none ↔ quote.capBytes = []) ∧
      ∀ info, quote.capInfo = some info →
        ∃ fixed, Wire.encode info.fixed = .ok fixed ∧ fixed ++ info.vendorSpecific = quote.capBytes
  | _, _ => True

/-- The body of an answer in terms of what the handler made of it. -/
structure Delivers (call : Call) (result : call.Result) (body params auths tail : Bytes) :
    Prop where
  body_eq : body = call.handles result ++ params ++ auths ++ tail
  params_eq : (call.reply result).outParams.bind Field.encode = .ok params
  auths_spelled : Field.Spells ((call.reply result).responses.map .ofWire) auths
  /-- Only behind a remainder there is nothing left. -/
  tail_eq : call.command = .unsealData → tail = []
  version : call.SplitsVersion result

/-- What the handler returned is what is in the answer: nothing, if it ends with its header, or else
the body that lies between its header and its declared length. -/
def Conveys (call : Call) (result : call.Result) (answer : Bytes) : Prop :=
  Answer.declared answer = 10 ∧ result = call.blank ∨
    10 < Answer.declared answer ∧ ∃ header body rest params auths tail,
      answer = header ++ body ++ rest ∧ header.length = 10 ∧
      10 + body.length = Answer.declared answer ∧ call.Delivers result body params auths tail

/-- The fields in front of the blocks, as they are read. -/
def front : (call : Call) → call.Result → List Field
  | sealData .., result => [.ofWire result.stored]
  | unsealData .., result =>
    [.u32 (UInt32.ofNat result.secret.length), .remainder result.secret]
  | loadKey2 .., result => [.u32 result.handle]
  | getPubKey .., result => [.ofWire result.pubKey]
  | quote2 .., quote => Parameters.quote2Out quote

section Reading

variable {call : Call} {values : FieldKind.Values call.kinds} {result : call.Result}

/-- The handler keeps every field that it reads. -/
theorem ofValues_of_finish (h : call.finish values = .ok result) :
    Field.ofValues call.kinds values =
      call.front result ++ (call.reply result).responses.map .ofWire := by
  cases call with
  | sealData | loadKey2 | getPubKey =>
    cases h
    rfl
  | unsealData =>
    obtain ⟨size, secret, keyResponse, dataResponse, _⟩ := values
    simp only [finish] at h
    split at h
    · rename_i hsize
      cases h
      simp only [front, ← hsize, UInt32.ofNat_toNat]
      rfl
    · cases h
  | quote2 =>
    obtain ⟨info, capBytes, signature, responseAuth, _⟩ := values
    obtain ⟨capInfo, _, rfl⟩ := map_eq_ok h
    rfl

theorem not_mem_flags_front (result : call.Result) : true ∉ Field.flags (call.front result) := by
  cases call <;>
    simp [front, Parameters.quote2Out, Field.flags, Field.ofWire, Field.u32, Field.remainder,
      Field.sized, FieldKind.flags, Wire.layout, Wire.toValue, Layout.flags]

/-- The front is the handles and the list that the caller checks. -/
theorem encode_front (h : call.finish values = .ok result) {first : Bytes}
    (hfirst : Field.encodeEach (call.front result) = .ok first) :
    ∃ params, first = call.handles result ++ params ∧
      (call.reply result).outParams.bind Field.encode = .ok params := by
  cases call with
  | sealData | getPubKey =>
    exact ⟨first, rfl, (Field.encode_of_no_remainder (by
      simp [front, Field.ofWire, FieldKind.policy])).trans hfirst⟩
  | unsealData =>
    obtain ⟨size, secret, keyResponse, dataResponse, _⟩ := values
    simp only [finish] at h
    split at h
    · rename_i hsize
      cases h
      have hbound : secret.length < 0x100000000 := hsize ▸ size.toNat_lt
      have hout : Parameters.unsealDataOut secret =
          .ok [.u32 (UInt32.ofNat secret.length), .array secret] := if_pos hbound
      refine ⟨first, rfl, ?_⟩
      simp only [reply, hout, Except.bind]
      -- the caller knows the length of what was read as a remainder
      exact (Field.encode_of_no_remainder (by
        simp [Field.u32, Field.array, FieldKind.policy])).trans hfirst
    · cases h
  | loadKey2 =>
    cases hfirst
    exact ⟨[], rfl, rfl⟩
  | quote2 =>
    exact ⟨first, rfl, (Field.encode_of_no_remainder (by
      simp [front, Parameters.quote2Out, Field.ofWire, Field.sized, FieldKind.policy])).trans
        hfirst⟩

theorem splitsVersion_of_finish (h : call.finish values = .ok result) :
    call.SplitsVersion result := by
  cases call with
  | sealData | unsealData | loadKey2 | getPubKey => trivial
  | quote2 =>
    obtain ⟨info, capBytes, signature, responseAuth, _⟩ := values
    obtain ⟨capInfo, hdecode, rfl⟩ := map_eq_ok h
    exact CapVersionInfo.decode_eq_ok hdecode

end Reading

section Delivering

variable {call : Call} {values : FieldKind.Values call.kinds} {result : call.Result}
  {body : Bytes} {after : Buffer}

theorem delivers_of_fill
    (hfill : FieldKind.fillAll call.kinds call.initial (Buffer.ofBytes body) =
      ⟨values, .ok (), after⟩)
    (hfinish : call.finish values = .ok result) :
    ∃ params auths, call.Delivers result body params auths after.ahead := by
  obtain ⟨source, htook, hspells⟩ := Field.spells_of_fillAll hfill
  rw [ofValues_of_finish hfinish] at hspells
  obtain ⟨first, auths, rfl, hfront, hauths⟩ :=
    Field.split_blocks (not_mem_flags_front result) hspells
  obtain ⟨params, rfl, hparams⟩ := encode_front hfinish hfront
  refine ⟨params, auths, htook.1, hparams, hauths, ?_, ?_⟩
  · intro hcommand
    obtain ⟨hlayout, heach⟩ := Field.fillAll_eq_ok hfill
    refine Field.ahead_of_remainder hlayout ?_ heach
    cases call <;> cases hcommand
    simp [kinds]
  · exact splitsVersion_of_finish hfinish

end Delivering

/-! ## Whole exchanges -/

theorem finish_initial (call : Call) : call.finish call.initial = .ok call.blank := by
  cases call <;> rfl

theorem conveys_of_judge {call : Call} {answer : Bytes} {result : call.Result}
    (h : call.judge (.ok answer) = some (.ok result)) : call.Conveys result answer := by
  obtain ⟨received, hreceive, hjudged⟩ :=
    judged_receive call.command.tag call.kinds call.initial answer
  rw [judge, Client.judge, hreceive] at h
  obtain ⟨⟨_, targets⟩, htargets, hfinish⟩ := bind_eq_ok.mp (Option.some.inj h)
  obtain ⟨_, hresult, heq⟩ := map_eq_ok htargets
  cases heq
  dsimp only at hfinish
  cases hjudged with
  | short | refused | mistagged | undersized | cut => cases hresult
  | bare _ hsize =>
    left
    rw [finish_initial] at hfinish
    cases hfinish
    exact ⟨hsize, rfl⟩
  | filled header body tail _ hsize hanswer hheader hbody =>
    right
    cases hfill : FieldKind.fillAll call.kinds call.initial (Buffer.ofBytes body) with
    | mk values outcome after =>
      rw [hfill] at hresult hfinish
      obtain ⟨_, rfl, _⟩ := map_eq_ok hresult
      obtain ⟨params, auths, hdelivers⟩ := delivers_of_fill hfill hfinish
      exact ⟨hsize, header, body, tail, params, auths, after.ahead, hanswer, hheader, hbody,
        hdelivers⟩

section Exchanges

variable {σ : Type} [Device σ] {call : Call} {blocks : List CommandAuth} {client after : Client σ}
  {result : call.Result}

/-- A handler that succeeds, on whatever device, has read one answer to its command and returns what
is in it; the reply that the caller checks accounts for the body of the answer. -/
theorem delivered (h : call.perform blocks client = some (.ok result, after)) :
    call.send blocks client = some (.ok (call.reply result), after) ∧
    ∃ request answer, call.request blocks = .ok request ∧
      Client.transfer request client = some (.ok answer, after) ∧
      call.Conveys result answer := by
  have hcount := length_of_perform h
  refine ⟨(send_eq call blocks client).trans (congrArg (Option.map _) h), ?_⟩
  cases hrequest : call.request blocks with
  | error error =>
    rw [perform_eq hcount, Client.bind_of_error (Client.submit_of_frame_error hrequest client)] at h
    cases h
  | ok request =>
    rw [perform_of_request hcount hrequest] at h
    obtain ⟨⟨answer, client'⟩, htransfer, hrest⟩ := Option.bind_eq_some_iff.mp h
    obtain ⟨judged, hjudge, heq⟩ := Option.map_eq_some_iff.mp hrest
    cases heq
    cases answer with
    | error error => cases hjudge
    | ok bytes => exact ⟨request, bytes, rfl, htransfer, conveys_of_judge hjudge⟩

/-- A public key without content, in an answer with a set flag that is not 1 and a tail. -/
theorem delivered_getPubKey : ∃ after,
    (getPubKey 7).send [default] (Client.ofAnswer ([0, 0xC5, 0, 0, 0, 68, 0, 0, 0, 0] ++
        List.replicate 36 0 ++ [7] ++ List.replicate 20 0 ++ [9])) =
      some (.ok ⟨.ok [.ofWire (default : PubKey)], [{ continueAuthSession := true }]⟩, after) ∧
    ∃ request answer, (getPubKey 7).request [default] = .ok request ∧
      Client.transfer request (Client.ofAnswer ([0, 0xC5, 0, 0, 0, 68, 0, 0, 0, 0] ++
        List.replicate 36 0 ++ [7] ++ List.replicate 20 0 ++ [9])) = some (.ok answer, after) ∧
      (getPubKey 7).Conveys ⟨default, { continueAuthSession := true }⟩ answer :=
  ⟨_, @delivered PlaybackDevice _ (getPubKey 7) [default] _ _
    ⟨default, { continueAuthSession := true }⟩ rfl⟩

end Exchanges

end Call

end TrustedModule
