import Mathlib.Data.List.Forall2
import TrustedModule.Device.Simulator
import TrustedModule.Proofs.Wire.RoundTrip

/-!
# Authorized commands on the simulator

An authorized command is accepted if its key is loaded, if every block names an open session and
carries the digest under that session's secret and nonce, and if the command itself succeeds. Only
then do the sessions move, each to a nonce drawn for it or out of the table. Every refusal leaves
the simulator as it was.
-/

set_option autoImplicit false

namespace TrustedModule

/-! ## The two blocks -/

/-- The 45 bytes of a command's block. -/
def CommandAuth.encoding (block : CommandAuth) : Bytes :=
  bigEndian 4 block.authHandle.toNat ++ block.nonceOdd.bytes ++
    [if block.continueAuthSession then 1 else 0] ++ block.auth.bytes

/-- The 41 bytes of a response's block. -/
def ResponseAuth.encoding (block : ResponseAuth) : Bytes :=
  block.nonceEven.bytes ++ [if block.continueAuthSession then 1 else 0] ++ block.auth.bytes

theorem CommandAuth.encode_eq (block : CommandAuth) : Wire.encode block = .ok block.encoding := by
  simp [Wire.encode, Wire.layout, Wire.toValue, encoding, bind, Except.bind, pure, Except.pure]

theorem ResponseAuth.encode_eq (block : ResponseAuth) : Wire.encode block = .ok block.encoding := by
  simp [Wire.encode, Wire.layout, Wire.toValue, encoding, bind, Except.bind, pure, Except.pure]

@[simp] theorem CommandAuth.length_encoding (block : CommandAuth) :
    block.encoding.length = wireLength := by
  simp [encoding, wireLength]

@[simp] theorem ResponseAuth.length_encoding (block : ResponseAuth) :
    block.encoding.length = wireLength := by
  simp [encoding, wireLength]

namespace Field

/-- A list without a remainder is laid out field by field. -/
theorem encode_of_no_remainder {fields : List Field}
    (h : ∀ field ∈ fields, field.kind.policy ≠ .remainder) :
    encode fields = encodeEach fields := by
  have hlayout : FieldKind.layoutFault? (fields.map kind) = none := by
    apply FieldKind.layoutFault?_of_no_remainder
    intro kind hmem
    obtain ⟨field, hfield, rfl⟩ := List.mem_map.mp hmem
    exact h field hfield
  rw [encode_eq, hlayout]

/-- Structures that all have an encoding are run together. -/
theorem encodeEach_structures {α : Type} [Wire α] {encoding : α → Bytes}
    (h : ∀ a : α, Wire.encode a = .ok (encoding a)) (items : List α) :
    encodeEach (items.map ofWire) = .ok (items.flatMap encoding) := by
  induction items with
  | nil => rfl
  | cons item items ih =>
    exact append_eq_ok.mpr ⟨_, _, h item, ih, rfl⟩

theorem no_remainder_structures {α : Type} [Wire α] (items : List α) :
    ∀ field ∈ items.map ofWire, field.kind.policy ≠ .remainder := by
  intro field hmem
  obtain ⟨item, _, rfl⟩ := List.mem_map.mp hmem
  simp [ofWire, FieldKind.policy]

theorem encode_blocks (blocks : List ResponseAuth) :
    encode (blocks.map ofWire) = .ok (blocks.flatMap ResponseAuth.encoding) := by
  rw [encode_of_no_remainder (no_remainder_structures blocks),
    encodeEach_structures ResponseAuth.encode_eq]

end Field

/-- The block does not close the session that a later one names. -/
def CommandAuth.Spares (block later : CommandAuth) : Prop :=
  later.authHandle = block.authHandle → block.continueAuthSession = true

/-- A session after its block: closed, or at the nonce that the answer carries. -/
def SimulatorSession.rolled (keep : Bool) (nonceEven : Digest) (session : SimulatorSession) :
    Option SimulatorSession :=
  if keep then some { session with nonceEven } else none

namespace Simulator

/-! ## Checking the blocks -/

/-- The block names an open session and carries the digest under its secret and its nonce. -/
def Authentic (sim : Simulator) (paramDigest : Digest) (block : CommandAuth) : Prop :=
  ∃ session, sim.sessions.find? block.authHandle = some session ∧
    authDigest session.secret.bytes paramDigest session.nonceEven block.nonceOdd
      block.continueAuthSession = block.auth

theorem checkAuths_eq_ok {sim : Simulator} {paramDigest : Digest} {refusal : ReturnCode}
    {blocks : List CommandAuth} :
    sim.checkAuths paramDigest refusal blocks = .ok () ↔
      ∀ block ∈ blocks, sim.Authentic paramDigest block := by
  induction blocks generalizing refusal with
  | nil => simp [checkAuths]
  | cons block blocks ih =>
    unfold checkAuths Authentic
    rw [List.forall_mem_cons]
    cases hfind : sim.sessions.find? block.authHandle with
    | none => simp
    | some session =>
      dsimp only
      split
      · rename_i hdigest
        rw [ih]
        exact ⟨fun h => ⟨⟨session, rfl, hdigest⟩, h⟩, fun h => h.2⟩
      · rename_i hdigest
        refine ⟨nofun, ?_⟩
        rintro ⟨⟨other, hother, h⟩, _⟩
        cases hother
        exact absurd h hdigest

theorem checkAuths_ne_success {sim : Simulator} {paramDigest : Digest} {refusal code : ReturnCode}
    {blocks : List CommandAuth} (hrefusal : refusal ≠ .success)
    (h : sim.checkAuths paramDigest refusal blocks = .error code) : code ≠ .success := by
  induction blocks generalizing refusal with
  | nil => cases h
  | cons block blocks ih =>
    unfold checkAuths at h
    split at h
    · cases h
      decide
    · split at h
      · exact ih (by decide) h
      · cases h
        exact hrefusal

/-! ## Answering the blocks -/

/-- The answer to a block of an accepted command. -/
def responseTo (outDigest : Digest) (block : CommandAuth) (session : SimulatorSession)
    (sim : Simulator) : ResponseAuth :=
  { nonceEven := nonceAfter sim.nonceCounter
    continueAuthSession := block.continueAuthSession
    auth := authDigest session.secret.bytes outDigest (nonceAfter sim.nonceCounter) block.nonceOdd
      block.continueAuthSession }

/-- The simulator after it has answered a block: the session has the next nonce, or is closed. -/
def settle (block : CommandAuth) (session : SimulatorSession) (sim : Simulator) : Simulator :=
  { sim with
    nonceCounter := sim.nonceCounter + 1
    sessions :=
      if block.continueAuthSession then
        sim.sessions.insert block.authHandle
          { session with nonceEven := nonceAfter sim.nonceCounter }
      else
        sim.sessions.erase block.authHandle }

theorem answerAuths_cons (outDigest : Digest) (block : CommandAuth) (blocks : List CommandAuth)
    (sim : Simulator) :
    answerAuths outDigest (block :: blocks) sim =
      (sim.sessions.find? block.authHandle).bind fun session =>
        (answerAuths outDigest blocks (sim.settle block session)).map fun (answers, next) =>
          (sim.responseTo outDigest block session :: answers, next) := by
  simp only [answerAuths, drawNonce]
  cases sim.sessions.find? block.authHandle <;> rfl

theorem find?_settle_self (block : CommandAuth) (session : SimulatorSession) (sim : Simulator) :
    (sim.settle block session).sessions.find? block.authHandle =
      SimulatorSession.rolled block.continueAuthSession (nonceAfter sim.nonceCounter) session := by
  unfold settle SimulatorSession.rolled
  cases block.continueAuthSession
  · exact HandleTable.find?_erase_self ..
  · exact HandleTable.find?_insert_self ..

theorem find?_settle_of_ne {block : CommandAuth} {handle : Handle} (session : SimulatorSession)
    (sim : Simulator) (h : handle ≠ block.authHandle) :
    (sim.settle block session).sessions.find? handle = sim.sessions.find? handle := by
  unfold settle
  cases block.continueAuthSession
  · exact HandleTable.find?_erase_of_ne _ h
  · exact HandleTable.find?_insert_of_ne _ _ h

/-- The answer proves that the device knows the secret of the block's session, and tells how the
session is left. -/
def Settled (outDigest : Digest) (before after : Simulator) (block : CommandAuth)
    (answer : ResponseAuth) : Prop :=
  ∃ session, before.sessions.find? block.authHandle = some session ∧
    answer.continueAuthSession = block.continueAuthSession ∧
    answer.auth = authDigest session.secret.bytes outDigest answer.nonceEven block.nonceOdd
      block.continueAuthSession ∧
    after.sessions.find? block.authHandle =
      SimulatorSession.rolled block.continueAuthSession answer.nonceEven session

/-- Only the sessions matter. -/
theorem Settled.congr {outDigest : Digest} {before before' after after' : Simulator}
    {block : CommandAuth} {answer : ResponseAuth} (h : Settled outDigest before after block answer)
    (hbefore : before.sessions = before'.sessions) (hafter : after.sessions = after'.sessions) :
    Settled outDigest before' after' block answer := by
  unfold Settled
  rw [← hbefore, ← hafter]
  exact h

/-- Blocks of different sessions are settled each on its own, and other sessions do not move. -/
theorem answerAuths_settled {outDigest : Digest} {blocks : List CommandAuth}
    {answers : List ResponseAuth} {sim next : Simulator}
    (hanswer : answerAuths outDigest blocks sim = some (answers, next))
    (hdistinct : (blocks.map CommandAuth.authHandle).Nodup) :
    List.Forall₂ (Settled outDigest sim next) blocks answers ∧
      ∀ handle, handle ∉ blocks.map CommandAuth.authHandle →
        next.sessions.find? handle = sim.sessions.find? handle := by
  induction blocks generalizing sim answers with
  | nil =>
    cases hanswer
    exact ⟨.nil, fun _ _ => rfl⟩
  | cons block blocks ih =>
    rw [answerAuths_cons] at hanswer
    obtain ⟨session, hfind, hanswer⟩ := Option.bind_eq_some_iff.mp hanswer
    obtain ⟨⟨rest, final⟩, hrest, heq⟩ := Option.map_eq_some_iff.mp hanswer
    cases heq
    obtain ⟨hnew, hdistinct⟩ := List.nodup_cons.mp hdistinct
    obtain ⟨hsettled, hothers⟩ := ih hrest hdistinct
    refine ⟨.cons ⟨session, hfind, rfl, rfl, ?_⟩ ?_, ?_⟩
    · rw [hothers _ hnew, find?_settle_self]
      rfl
    · -- the later blocks name other sessions, which the first one left alone
      have hne : ∀ other ∈ blocks, other.authHandle ≠ block.authHandle :=
        fun other hmem heq => hnew (heq ▸ List.mem_map_of_mem hmem)
      refine ((List.forall₂_and_left blocks rest).mpr ⟨hne, hsettled⟩).imp ?_
      rintro other answer ⟨hother, found, hfound, hrest⟩
      exact ⟨found, (find?_settle_of_ne session sim hother).symm.trans hfound, hrest⟩
    · intro handle hmem
      rw [List.map_cons, List.mem_cons, not_or] at hmem
      obtain ⟨hne, hmem⟩ := hmem
      rw [hothers handle hmem, find?_settle_of_ne session sim hne]

/-- Blocks of open sessions can all be answered if none closes the session of a later one. -/
theorem exists_answerAuths_of_spares (outDigest : Digest) {blocks : List CommandAuth}
    {sim : Simulator} (hspares : blocks.Pairwise CommandAuth.Spares)
    (hopen : ∀ block ∈ blocks, ∃ session, sim.sessions.find? block.authHandle = some session) :
    ∃ answers next, answerAuths outDigest blocks sim = some (answers, next) := by
  induction blocks generalizing sim with
  | nil => exact ⟨[], sim, rfl⟩
  | cons block blocks ih =>
    obtain ⟨hfirst, hspares⟩ := List.pairwise_cons.mp hspares
    obtain ⟨session, hfind⟩ := hopen block (List.mem_cons_self ..)
    have hrest : ∀ other ∈ blocks, ∃ found,
        (sim.settle block session).sessions.find? other.authHandle = some found := by
      intro other hmem
      by_cases hsame : other.authHandle = block.authHandle
      · rw [hsame, find?_settle_self, hfirst other hmem hsame]
        exact ⟨_, rfl⟩
      · obtain ⟨found, hfound⟩ := hopen other (List.mem_cons_of_mem _ hmem)
        exact ⟨found, (find?_settle_of_ne session sim hsame).trans hfound⟩
    obtain ⟨answers, next, hanswer⟩ := ih hspares hrest
    refine ⟨sim.responseTo outDigest block session :: answers, next, ?_⟩
    rw [answerAuths_cons, hfind, Option.bind_some, hanswer]
    rfl

/-- Blocks of different open sessions can all be answered. -/
theorem exists_answerAuths (outDigest : Digest) {blocks : List CommandAuth} {sim : Simulator}
    (hdistinct : (blocks.map CommandAuth.authHandle).Nodup)
    (hopen : ∀ block ∈ blocks, ∃ session, sim.sessions.find? block.authHandle = some session) :
    ∃ answers next, answerAuths outDigest blocks sim = some (answers, next) := by
  refine exists_answerAuths_of_spares outDigest ?_ hopen
  exact (List.pairwise_map.mp hdistinct).imp fun hne hsame => absurd hsame.symm hne

theorem length_answers {outDigest : Digest} {blocks : List CommandAuth}
    {answers : List ResponseAuth} {sim next : Simulator}
    (h : answerAuths outDigest blocks sim = some (answers, next)) :
    answers.length = blocks.length := by
  induction blocks generalizing sim answers with
  | nil =>
    cases h
    rfl
  | cons block blocks ih =>
    rw [answerAuths_cons] at h
    obtain ⟨session, _, h⟩ := Option.bind_eq_some_iff.mp h
    obtain ⟨⟨rest, final⟩, hrest, heq⟩ := Option.map_eq_some_iff.mp h
    cases heq
    rw [List.length_cons, ih hrest, List.length_cons]

/-! ## Running the command -/

/-- The simulator with one more key. -/
def loadKey (sim : Simulator) : Simulator :=
  { sim with nextKey := sim.nextKey + 1, keys := sim.keys.insert sim.nextKey }

/-- Of the commands only an accepted LoadKey2 changes the simulator before the blocks are
answered. -/
theorem perform_next {command : AuthorizedCommand} {params : Bytes} {sim next : Simulator}
    {result : Except ReturnCode Output} (h : sim.perform command params = some (result, next)) :
    next = sim ∨ command = .loadKey2 ∧ (∃ output, result = .ok output) ∧ next = sim.loadKey := by
  cases command with
  | sealData | unsealData | getPubKey =>
    simp only [perform, Option.some.injEq, Prod.mk.injEq] at h
    exact .inl h.2.symm
  | loadKey2 =>
    unfold perform at h
    dsimp only at h
    split at h
    · cases h
      exact .inl rfl
    · cases h
      exact .inr ⟨rfl, ⟨_, rfl⟩, rfl⟩
  | quote2 =>
    unfold perform at h
    dsimp only at h
    split at h
    · cases h
      exact .inl rfl
    · obtain ⟨values, _, heq⟩ := Option.map_eq_some_iff.mp h
      cases heq
      exact .inl rfl

/-- The end of a command that was run: its blocks are answered, unless it was refused. -/
def conclude (command : AuthorizedCommand) (auths : List CommandAuth) :
    Except ReturnCode Output × Simulator → Option (Except ReturnCode Bytes × Simulator)
  | (.error code, sim) => some (.error code, sim)
  | (.ok output, sim) =>
    (answerAuths (responseDigest 0 command.ordinal output.params) auths sim).map
      fun (answers, next) =>
        (.ok (output.handles ++ output.params ++ answers.flatMap ResponseAuth.encoding), next)

section Running

variable {command : AuthorizedCommand} {keyHandle : Handle} {params : Bytes}
  {auths : List CommandAuth} {sim : Simulator}

theorem runAuthorized_of_passed (hkey : sim.hasKey keyHandle = true)
    (hauthentic : ∀ block ∈ auths, sim.Authentic (commandDigest command.ordinal params) block) :
    sim.runAuthorized command keyHandle params auths =
      (sim.perform command params).bind (conclude command auths) := by
  unfold runAuthorized
  rw [if_pos hkey, checkAuths_eq_ok.mpr hauthentic]
  dsimp only
  cases sim.perform command params with
  | none => rfl
  | some outcome =>
    obtain ⟨_ | output, middle⟩ := outcome
    · rfl
    · simp only [Field.encode_blocks]
      rfl

/-- Without its key or with a wrong block, a command is refused and changes nothing. -/
theorem runAuthorized_of_failed
    (hfailed : ¬ (sim.hasKey keyHandle = true ∧
      ∀ block ∈ auths, sim.Authentic (commandDigest command.ordinal params) block)) :
    ∃ code, code ≠ .success ∧
      sim.runAuthorized command keyHandle params auths = some (.error code, sim) := by
  unfold runAuthorized
  split
  · rename_i hkey
    cases hcheck : sim.checkAuths (commandDigest command.ordinal params) .authFail auths with
    | error code => exact ⟨code, checkAuths_ne_success (by decide) hcheck, rfl⟩
    | ok _ => exact absurd ⟨hkey, checkAuths_eq_ok.mp hcheck⟩ hfailed
  · exact ⟨_, by decide, rfl⟩

/-- What has to hold for an authorized command to be accepted, and what it gives then. -/
theorem runAuthorized_eq_ok {body : Bytes} {next : Simulator} :
    sim.runAuthorized command keyHandle params auths = some (.ok body, next) ↔
      sim.hasKey keyHandle = true ∧
      (∀ block ∈ auths, sim.Authentic (commandDigest command.ordinal params) block) ∧
      ∃ output middle answers, sim.perform command params = some (.ok output, middle) ∧
        answerAuths (responseDigest 0 command.ordinal output.params) auths middle =
          some (answers, next) ∧
        body = output.handles ++ output.params ++ answers.flatMap ResponseAuth.encoding := by
  rw [← and_assoc]
  by_cases hpassed : sim.hasKey keyHandle = true ∧
      ∀ block ∈ auths, sim.Authentic (commandDigest command.ordinal params) block
  · rw [runAuthorized_of_passed hpassed.1 hpassed.2, and_iff_right hpassed,
      Option.bind_eq_some_iff]
    constructor
    · rintro ⟨⟨_ | output, middle⟩, hperform, hconclude⟩
      · cases hconclude
      · obtain ⟨⟨answers, final⟩, hanswer, heq⟩ := Option.map_eq_some_iff.mp hconclude
        cases heq
        exact ⟨output, middle, answers, hperform, hanswer, rfl⟩
    · rintro ⟨output, middle, answers, hperform, hanswer, rfl⟩
      exact ⟨_, hperform, Option.map_eq_some_iff.mpr ⟨_, hanswer, rfl⟩⟩
  · obtain ⟨code, _, hrefused⟩ := runAuthorized_of_failed hpassed
    rw [hrefused]
    exact ⟨nofun, fun h => absurd h.1 hpassed⟩

/-- A command that was authorized can still be refused when it is run. -/
theorem runAuthorized_eq_error {code : ReturnCode} {next : Simulator}
    (h : sim.runAuthorized command keyHandle params auths = some (.error code, next)) :
    code ≠ .success ∧ next = sim ∨ sim.perform command params = some (.error code, next) := by
  by_cases hpassed : sim.hasKey keyHandle = true ∧
      ∀ block ∈ auths, sim.Authentic (commandDigest command.ordinal params) block
  · rw [runAuthorized_of_passed hpassed.1 hpassed.2] at h
    obtain ⟨⟨_ | output, middle⟩, hperform, hconclude⟩ := Option.bind_eq_some_iff.mp h
    · cases hconclude
      exact .inr hperform
    · obtain ⟨_, _, heq⟩ := Option.map_eq_some_iff.mp hconclude
      cases heq
  · obtain ⟨other, hother, hrefused⟩ := runAuthorized_of_failed hpassed
    cases hrefused.symm.trans h
    exact .inl ⟨hother, rfl⟩

/-- A refused authorized command changes nothing. -/
theorem runAuthorized_refused {code : ReturnCode} {next : Simulator}
    (h : sim.runAuthorized command keyHandle params auths = some (.error code, next)) :
    next = sim := by
  obtain ⟨_, hnext⟩ | hperform := runAuthorized_eq_error h
  · exact hnext
  · obtain hnext | ⟨_, ⟨_, heq⟩, _⟩ := perform_next hperform
    · exact hnext
    · cases heq

end Running

end Simulator

end TrustedModule
