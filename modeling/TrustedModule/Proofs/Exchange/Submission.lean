import Mathlib.Tactic.SplitIfs
import TrustedModule.Device.Playback
import TrustedModule.Proofs.Exchange.Framing

/-!
# Outcome of a submission

The three numbers in the header of an answer come from the device, and none of them is to be
trusted. `Judged` says from the bytes of the answer alone what the client makes of it; its rules
exclude each other, and a rule that rejects the answer leaves the targets as they were. A submission
that succeeds gives return code zero. It follows these rules whatever the device, and whatever the
device sends after the declared length goes unnoticed.
-/

set_option autoImplicit false

namespace TrustedModule

namespace Answer

/-- The number in the `count` bytes of the answer from `start` on. -/
def number (start count : Nat) (answer : Bytes) : Nat :=
  ofBigEndian ((answer.drop start).take count)

def tag (answer : Bytes) : Nat := number 0 2 answer

/-- The length that the answer claims for itself. -/
def declared (answer : Bytes) : Nat := number 2 4 answer

def returnCode (answer : Bytes) : Nat := number 6 4 answer

theorem number_lt {start count : Nat} {answer : Bytes} (h : start + count ≤ answer.length) :
    number start count answer < 256 ^ count := by
  have hbound := ofBigEndian_lt ((answer.drop start).take count)
  rwa [List.length_take_of_le (by rw [List.length_drop]; omega)] at hbound

/-- A number in the header stays the same if the answer is cut behind it. -/
theorem number_take {start count length : Nat} (h : start + count ≤ length) (answer : Bytes) :
    number start count (answer.take length) = number start count answer := by
  rw [number, List.drop_take, List.take_take, Nat.min_eq_left (by omega), number]

section Header

variable {length : Nat} (h : headerSize ≤ length) (answer : Bytes)
include h

theorem tag_take : tag (answer.take length) = tag answer :=
  number_take (Nat.le_trans (by decide) h) answer

theorem declared_take : declared (answer.take length) = declared answer :=
  number_take (Nat.le_trans (by decide) h) answer

theorem returnCode_take : returnCode (answer.take length) = returnCode answer :=
  number_take h answer

end Header

/-- Both answers hold the message that the first declares, and agree on it. A header is looked at
as a whole, also where the declared length is less than it. -/
def SameMessage (answer other : Bytes) : Prop :=
  max headerSize (declared answer) ≤ answer.length ∧
  max headerSize (declared answer) ≤ other.length ∧
  other.take (max headerSize (declared answer)) = answer.take (max headerSize (declared answer))

instance (answer other : Bytes) : Decidable (SameMessage answer other) :=
  inferInstanceAs (Decidable (_ ∧ _ ∧ _))

end Answer

open Answer

/-- The answer has a whole header, reports success, and answers a command with this tag. -/
def Succeeds (tag : UInt16) (answer : Bytes) : Prop :=
  10 ≤ answer.length ∧ returnCode answer = 0 ∧ Answer.tag answer = (tag.toNat + 3) % 65536

/-- What the client makes of an answer to a command with this tag. -/
inductive Judged (tag : UInt16) (kinds : List FieldKind) (targets : FieldKind.Values kinds)
    (answer : Bytes) : Received kinds → Prop where
  | short : answer.length < 10 →
      Judged tag kinds targets answer ⟨targets, .error (.underflow 10 answer.length)⟩
  | refused : 10 ≤ answer.length → returnCode answer ≠ 0 →
      Judged tag kinds targets answer
        ⟨targets, .error (.device ⟨UInt32.ofNat (returnCode answer)⟩)⟩
  | mistagged : 10 ≤ answer.length → returnCode answer = 0 →
      Answer.tag answer ≠ (tag.toNat + 3) % 65536 →
      Judged tag kinds targets answer
        ⟨targets, .error (.incorrectTag (tag + 3) (UInt16.ofNat (Answer.tag answer)))⟩
  | undersized : Succeeds tag answer → declared answer < 10 →
      Judged tag kinds targets answer
        ⟨targets, .error (.incorrectSize (UInt32.ofNat (declared answer)))⟩
  | cut : Succeeds tag answer → 10 ≤ declared answer → answer.length < declared answer →
      Judged tag kinds targets answer
        ⟨targets, .error (.underflow (declared answer) answer.length)⟩
  | bare : Succeeds tag answer → declared answer = 10 →
      Judged tag kinds targets answer ⟨targets, .ok 0⟩
  /-- The body lies between the header and the declared length. -/
  | filled (header body tail : Bytes) : Succeeds tag answer → 10 < declared answer →
      answer = header ++ body ++ tail → header.length = 10 → 10 + body.length = declared answer →
      Judged tag kinds targets answer
        ⟨(FieldKind.fillAll kinds targets (Buffer.ofBytes body)).target,
          (FieldKind.fillAll kinds targets (Buffer.ofBytes body)).result.map fun () => 0⟩

/-! ## The decision -/

/-- The header of an answer, by its bytes. -/
theorem ResponseHeader.unframe_of_le {answer : Bytes} (h : headerSize ≤ answer.length) :
    unframe answer = some (.ok
      { tag := UInt16.ofNat (Answer.tag answer), size := UInt32.ofNat (declared answer),
        returnCode := UInt32.ofNat (Answer.returnCode answer) }) := by
  have hblock : ∀ start count, start + count ≤ headerSize →
      ((answer.drop start).take count).length = count := by
    intro start count hle
    exact List.length_take_of_le (by rw [List.length_drop]; omega)
  have htake : answer.take headerSize =
      answer.take 2 ++ (answer.drop 2).take 4 ++ (answer.drop 6).take 4 := by
    rw [← List.take_add, ← List.take_add]
    rfl
  have hdecode := Wire.decode_append (encode_eq
    { tag := UInt16.ofNat (Answer.tag answer), size := UInt32.ofNat (declared answer),
      returnCode := UInt32.ofNat (Answer.returnCode answer) }) []
  unfold Answer.tag declared Answer.returnCode number at hdecode ⊢
  rw [List.append_nil, bigEndian_ofBigEndian_u16 (hblock 0 2 (by decide)),
    bigEndian_ofBigEndian_u32 (hblock 2 4 (by decide)),
    bigEndian_ofBigEndian_u32 (hblock 6 4 (by decide)), List.drop_zero, ← htake] at hdecode
  rw [unframe, if_neg (Nat.not_lt.mpr h), slice?_zero h, Option.map_some, hdecode]
  rfl

/-- The declared length, the return code and the tag as the client compares them. -/
theorem Answer.toNat_declared {answer : Bytes} (h : headerSize ≤ answer.length) :
    (UInt32.ofNat (declared answer)).toNat = declared answer :=
  UInt32.toNat_ofNat_of_lt' (number_lt (Nat.le_trans (by decide) h))

theorem Answer.ofNat_returnCode {answer : Bytes} (h : headerSize ≤ answer.length) :
    UInt32.ofNat (returnCode answer) = 0 ↔ returnCode answer = 0 := by
  rw [← UInt32.toNat_inj, UInt32.toNat_ofNat_of_lt' (number_lt h)]
  rfl

theorem Answer.ofNat_tag {answer : Bytes} (h : headerSize ≤ answer.length) (tag : UInt16) :
    UInt16.ofNat (Answer.tag answer) = Tag.answering tag ↔
      Answer.tag answer = (tag.toNat + 3) % 65536 := by
  rw [← UInt16.toNat_inj, UInt16.toNat_ofNat_of_lt' (number_lt (Nat.le_trans (by decide) h)),
    Tag.answering, UInt16.toNat_add]
  rfl

section Decision

variable {tag : UInt16} {kinds : List FieldKind} {targets : FieldKind.Values kinds}
  {answer other : Bytes}

/-- What is wrong with the header of an answer, by its bytes. -/
theorem check_of_le (h : headerSize ≤ answer.length) :
    ResponseHeader.check tag answer.length
        { tag := UInt16.ofNat (Answer.tag answer), size := UInt32.ofNat (declared answer),
          returnCode := UInt32.ofNat (returnCode answer) } =
      if returnCode answer ≠ 0 then .error (.device ⟨UInt32.ofNat (returnCode answer)⟩)
      else if Answer.tag answer ≠ (tag.toNat + 3) % 65536 then
        .error (.incorrectTag (tag + 3) (UInt16.ofNat (Answer.tag answer)))
      else if declared answer < 10 then
        .error (.incorrectSize (UInt32.ofNat (declared answer)))
      else if answer.length < declared answer then
        .error (.underflow (declared answer) answer.length)
      else .ok () := by
  simp only [ResponseHeader.check, ne_eq, ofNat_returnCode h, ofNat_tag h, toNat_declared h]
  rfl

/-- The decision on an answer that has a header, by its bytes. The body is reached for only after
the declared length was compared with what was read. -/
theorem receive_of_le (h : 10 ≤ answer.length) :
    receive tag kinds targets answer = some (
      if returnCode answer ≠ 0 then
        ⟨targets, .error (.device ⟨UInt32.ofNat (returnCode answer)⟩)⟩
      else if Answer.tag answer ≠ (tag.toNat + 3) % 65536 then
        ⟨targets, .error (.incorrectTag (tag + 3) (UInt16.ofNat (Answer.tag answer)))⟩
      else if declared answer < 10 then
        ⟨targets, .error (.incorrectSize (UInt32.ofNat (declared answer)))⟩
      else if answer.length < declared answer then
        ⟨targets, .error (.underflow (declared answer) answer.length)⟩
      else if declared answer = 10 then
        ⟨targets, .ok 0⟩
      else
        .ofFilled 0 (FieldKind.fillAll kinds targets
          (Buffer.ofBytes ((answer.take (declared answer)).drop 10)))) := by
  have hheader : headerSize ≤ answer.length := h
  rw [receive, ResponseHeader.unframe_of_le hheader, Option.bind_eq_bind, Option.bind_some]
  dsimp only
  rw [check_of_le hheader, toNat_declared hheader]
  by_cases hrefused : returnCode answer ≠ 0
  · rw [if_pos hrefused, if_pos hrefused]
    rfl
  rw [if_neg hrefused, if_neg hrefused, (ofNat_returnCode hheader).mpr (not_not.mp hrefused)]
  by_cases hmistagged : Answer.tag answer ≠ (tag.toNat + 3) % 65536
  · rw [if_pos hmistagged, if_pos hmistagged]
    rfl
  rw [if_neg hmistagged, if_neg hmistagged]
  by_cases hsmall : declared answer < 10
  · rw [if_pos hsmall, if_pos hsmall]
    rfl
  rw [if_neg hsmall, if_neg hsmall]
  by_cases hcut : answer.length < declared answer
  · rw [if_pos hcut, if_pos hcut]
    rfl
  rw [if_neg hcut, if_neg hcut]
  by_cases hbare : declared answer = 10
  · rw [if_pos hbare]
    exact if_pos hbare
  have hbody : slice? headerSize (declared answer) answer =
      some ((answer.take (declared answer)).drop 10) :=
    slice?_take (Nat.le_of_not_lt hsmall) (Nat.le_of_not_lt hcut)
  rw [if_neg hbare, hbody]
  exact if_neg hbare

theorem receive_of_lt (h : answer.length < 10) :
    receive tag kinds targets answer = some ⟨targets, .error (.underflow 10 answer.length)⟩ := by
  have hunframe : ResponseHeader.unframe answer = some (.error (.underflow 10 answer.length)) :=
    if_pos h
  rw [receive, hunframe]
  rfl

/-- An answer that reaches beyond its header and not beyond what was read has a body. -/
theorem Answer.exists_body (hmore : 10 < declared answer)
    (hle : declared answer ≤ answer.length) :
    ∃ header tail, answer = header ++ (answer.take (declared answer)).drop 10 ++ tail ∧
      header.length = 10 ∧
      10 + ((answer.take (declared answer)).drop 10).length = declared answer := by
  refine ⟨answer.take 10, answer.drop (declared answer), ?_, ?_, ?_⟩
  · have htake : answer.take 10 = (answer.take (declared answer)).take 10 := by
      rw [List.take_take, Nat.min_eq_left hmore.le]
    rw [htake, List.take_append_drop, List.take_append_drop]
  · exact List.length_take_of_le (hmore.le.trans hle)
  · rw [List.length_drop, List.length_take_of_le hle]
    exact Nat.add_sub_cancel' hmore.le

/-- Every answer falls under one of the rules, and the client follows it. -/
theorem judged_receive (tag : UInt16) (kinds : List FieldKind) (targets : FieldKind.Values kinds)
    (answer : Bytes) :
    ∃ received, receive tag kinds targets answer = some received ∧
      Judged tag kinds targets answer received := by
  by_cases hshort : answer.length < 10
  · exact ⟨_, receive_of_lt hshort, .short hshort⟩
  have hlong : 10 ≤ answer.length := Nat.le_of_not_lt hshort
  refine ⟨_, receive_of_le hlong, ?_⟩
  split_ifs with hrefused hmistagged hsmall hcut hbare
  · exact .refused hlong hrefused
  · exact .mistagged hlong (not_not.mp hrefused) hmistagged
  · exact .undersized ⟨hlong, not_not.mp hrefused, not_not.mp hmistagged⟩ hsmall
  · exact .cut ⟨hlong, not_not.mp hrefused, not_not.mp hmistagged⟩ (Nat.le_of_not_lt hsmall) hcut
  · exact .bare ⟨hlong, not_not.mp hrefused, not_not.mp hmistagged⟩ hbare
  · have hmore : 10 < declared answer := by omega
    obtain ⟨header, tail, hanswer, hheader, hbody⟩ := exists_body hmore (Nat.le_of_not_lt hcut)
    exact .filled header _ tail ⟨hlong, not_not.mp hrefused, not_not.mp hmistagged⟩ hmore hanswer
      hheader hbody

/-- No other outcome is in accordance with the rules. -/
theorem Judged.eq_receive {received : Received kinds}
    (h : Judged tag kinds targets answer received) :
    receive tag kinds targets answer = some received := by
  cases h with
  | short hshort => rw [receive_of_lt hshort]
  | refused hlong hcode => rw [receive_of_le hlong, if_pos hcode]
  | mistagged hlong hcode htag =>
    rw [receive_of_le hlong, if_neg (not_not_intro hcode), if_pos htag]
  | undersized hsucceeds hsmall =>
    obtain ⟨hlong, hcode, htag⟩ := hsucceeds
    rw [receive_of_le hlong, if_neg (not_not_intro hcode), if_neg (not_not_intro htag),
      if_pos hsmall]
  | cut hsucceeds hsize hcut =>
    obtain ⟨hlong, hcode, htag⟩ := hsucceeds
    rw [receive_of_le hlong, if_neg (not_not_intro hcode), if_neg (not_not_intro htag),
      if_neg (Nat.not_lt.mpr hsize), if_pos hcut]
  | bare hsucceeds hsize =>
    obtain ⟨hlong, hcode, htag⟩ := hsucceeds
    rw [receive_of_le hlong, if_neg (not_not_intro hcode), if_neg (not_not_intro htag),
      if_neg (Nat.not_lt.mpr hsize.ge), if_neg (Nat.not_lt.mpr (hsize.le.trans hlong)),
      if_pos hsize]
  | filled header body tail hsucceeds hsize hanswer hheader hbody =>
    obtain ⟨hlong, hcode, htag⟩ := hsucceeds
    have hlength := congrArg List.length hanswer
    rw [List.length_append, List.length_append] at hlength
    have htotal : declared answer = (header ++ body).length := by
      rw [List.length_append, hheader, hbody]
    have hread : (answer.take (declared answer)).drop 10 = body := by
      rw [htotal, hanswer, List.take_left' rfl, List.drop_left' hheader]
    rw [receive_of_le hlong, if_neg (not_not_intro hcode), if_neg (not_not_intro htag),
      if_neg (by omega), if_neg (by omega), if_neg (by omega), hread]
    rfl

/-- An answer can be cut anywhere behind its header and its declared length. -/
theorem receive_take {length : Nat} (hheader : headerSize ≤ length)
    (hdeclared : declared answer ≤ length) (hle : length ≤ answer.length) :
    receive tag kinds targets (answer.take length) = receive tag kinds targets answer := by
  have hlength : (answer.take length).length = length := List.length_take_of_le hle
  rw [receive_of_le (hheader.trans hlength.ge), receive_of_le (hheader.trans hle)]
  simp only [tag_take hheader, declared_take hheader, returnCode_take hheader, hlength,
    List.take_take, Nat.min_eq_left hdeclared]
  rw [if_neg (Nat.not_lt.mpr hdeclared), if_neg (Nat.not_lt.mpr (hdeclared.trans hle))]

/-- Bytes behind the declared length do not matter. -/
theorem receive_congr (h : SameMessage answer other) :
    receive tag kinds targets other = receive tag kinds targets answer := by
  obtain ⟨hanswer, hother, hsame⟩ := h
  have hheader := Nat.le_max_left headerSize (declared answer)
  have hdeclared : declared other = declared answer := by
    rw [← declared_take hheader other, hsame, declared_take hheader]
  rw [← receive_take hheader (Nat.le_max_right ..) hanswer, ← hsame,
    receive_take hheader (hdeclared.le.trans (Nat.le_max_right ..)) hother]

end Decision

/-! ## Submissions -/

namespace Client

variable {σ : Type} [Device σ]

/-- A device that takes the whole command and answers the read. -/
theorem transfer_answered {request answer : Bytes} {client sent after : Client σ}
    (hsend : send request client = some (.ok request.length, sent))
    (hread : readUpTo sent.maxResponse sent = some (.ok answer, after)) :
    transfer request client = some (.ok answer, after) := by
  have hget : (get : Exchange σ (Client σ)) sent = some (.ok sent, sent) := rfl
  rw [transfer, bind_of_ok hsend, if_pos rfl, bind_of_ok hget]
  exact hread

/-- What a handler makes of the answer to its command, or of having got none. -/
def judge {α : Type} (tag : UInt16) (kinds : List FieldKind) (initial : FieldKind.Values kinds)
    (finish : UInt32 × FieldKind.Values kinds → Except Error α) :
    Except Error Bytes → Option (Except Error α)
  | .error error => some (.error error)
  | .ok answer => (receive tag kinds initial answer).map fun received =>
      received.toExcept.bind finish

section Judging

variable {α : Type} {tag : UInt16} {ordinal : UInt32} {input : List Field} {kinds : List FieldKind}
  {initial : FieldKind.Values kinds} {finish : UInt32 × FieldKind.Values kinds → Except Error α}
  {handler : Exchange σ α}

/-- No answer is beyond the judgement of a handler. -/
theorem exists_judge (tag : UInt16) (initial : FieldKind.Values kinds)
    (finish : UInt32 × FieldKind.Values kinds → Except Error α) (answer : Except Error Bytes) :
    ∃ result, judge tag kinds initial finish answer = some result := by
  cases answer with
  | error error => exact ⟨_, rfl⟩
  | ok bytes =>
    obtain ⟨received, hreceive, _⟩ := judged_receive tag kinds initial bytes
    exact ⟨_, congrArg (Option.map _) hreceive⟩

/-- A handler whose command has an encoding writes it once, reads once, and judges what it has
read. -/
theorem judge_of_request {request : Bytes}
    (hhandler : handler = submit tag ordinal input kinds initial >>= fun read =>
      ofExcept (finish read))
    (h : CommandHeader.frame tag ordinal input = .ok request) (client : Client σ) :
    handler client = (transfer request client).bind fun (answer, after) =>
      (judge tag kinds initial finish answer).map (·, after) := by
  rw [hhandler, bind_ofExcept, submit_of_frame h]
  cases transfer request client with
  | none => rfl
  | some outcome =>
    obtain ⟨answer, after⟩ := outcome
    cases answer with
    | error error => rfl
    | ok bytes =>
      simp only [Option.bind_some, judge, Option.map_map]
      rfl

end Judging

/-- A command that was taken as a whole, and the answer that was read: the client follows the rules,
and gets the same from every exchange, with this device or another one, whose answer holds the same
message. -/
theorem submitInto_answered {tag : UInt16} {ordinal : UInt32} {input : List Field}
    {kinds : List FieldKind} {targets : FieldKind.Values kinds} {request answer : Bytes}
    {client sent after : Client σ}
    (hframe : CommandHeader.frame tag ordinal input = .ok request)
    (hsend : send request client = some (.ok request.length, sent))
    (hread : readUpTo sent.maxResponse sent = some (.ok answer, after)) :
    ∃ received, submitInto tag ordinal input kinds targets client = some (received, after) ∧
      Judged tag kinds targets answer received ∧
      ∀ (τ : Type) [Device τ] (other : Bytes) (client' sent' after' : Client τ),
        SameMessage answer other →
        send request client' = some (.ok request.length, sent') →
        readUpTo sent'.maxResponse sent' = some (.ok other, after') →
        submitInto tag ordinal input kinds targets client' = some (received, after') := by
  obtain ⟨received, hreceive, hjudged⟩ := judged_receive tag kinds targets answer
  refine ⟨received, ?_, hjudged, ?_⟩
  · rw [submitInto_of_frame hframe, transfer_answered hsend hread]
    simp only [Option.bind_some, hreceive, Option.map_some]
  · intro τ _ other client' sent' after' hsame hsend' hread'
    rw [submitInto_of_frame hframe, transfer_answered hsend' hread']
    simp only [Option.bind_some, receive_congr hsame, hreceive, Option.map_some]

/-- A client whose device has one answer ready. -/
def ofAnswer (answer : Bytes) : Client PlaybackDevice := ⟨{ responses := [answer] }, 4096⟩

/-- Two answers to one command, of which the first goes on behind its declared length. -/
theorem submitInto_answered_tail :
    ∃ received : Received [.plain .u16],
      received.toExcept = .ok (0, 0x0102, ()) ∧
      submitInto Tag.request Ordinal.oiap [] [.plain .u16] (0, ())
        (ofAnswer [0, 0xC4, 0, 0, 0, 12, 0, 0, 0, 0, 1, 2, 7]) =
          some (received, ⟨{ writes := [[0, 0xC1, 0, 0, 0, 10, 0, 0, 0, 10]] }, 4096⟩) ∧
      Judged Tag.request [.plain .u16] (0, ()) [0, 0xC4, 0, 0, 0, 12, 0, 0, 0, 0, 1, 2, 7]
        received ∧
      submitInto Tag.request Ordinal.oiap [] [.plain .u16] (0, ())
        (ofAnswer [0, 0xC4, 0, 0, 0, 12, 0, 0, 0, 0, 1, 2]) =
          some (received, ⟨{ writes := [[0, 0xC1, 0, 0, 0, 10, 0, 0, 0, 10]] }, 4096⟩) := by
  have hsame : SameMessage [0, 0xC4, 0, 0, 0, 12, 0, 0, 0, 0, 1, 2, 7]
      [0, 0xC4, 0, 0, 0, 12, 0, 0, 0, 0, 1, 2] := by decide
  obtain ⟨received, hsubmit, hjudged, hother⟩ :=
    @submitInto_answered PlaybackDevice _ Tag.request Ordinal.oiap [] [.plain .u16] (0, ()) _ _
      (ofAnswer [0, 0xC4, 0, 0, 0, 12, 0, 0, 0, 0, 1, 2, 7]) _ _ rfl rfl rfl
  have hreceived : received = ⟨(0x0102, ()), .ok 0⟩ := by
    cases hsubmit
    rfl
  exact ⟨received, hreceived ▸ rfl, hsubmit, hjudged,
    hother PlaybackDevice _ _ _ _ hsame rfl rfl⟩

end Client

end TrustedModule
