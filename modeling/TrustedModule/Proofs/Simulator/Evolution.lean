import Mathlib.Logic.Relation
import TrustedModule.Proofs.Simulator.Effects

/-!
# How the simulator evolves

A session that is open after some calls was open before them, with the same secret, or it was opened
on the way under a handle that was not issued before. Its nonce is the old one, or one drawn on the
way. Both hold as long as the counters of handles and nonces do not wrap around.
-/

set_option autoImplicit false

namespace TrustedModule.Simulator

/-- Neither the handles of sessions nor the nonces have started over. -/
structure NoWrap (before after : Simulator) : Prop where
  handles : before.nextSession ≤ after.nextSession
  nonces : before.nonceCounter ≤ after.nonceCounter

/-- One call of the device: any bytes are written, or any number of bytes is asked for. -/
inductive Step : Simulator → Simulator → Prop
  | write {sim next : Simulator} {command : Bytes} {written : Except String Nat}
      (hwrite : Device.write command sim = some (written, next)) (hwrap : sim.NoWrap next) :
      Step sim next
  | read (sim : Simulator) (limit : Nat) : Step sim (Device.read limit sim).2

/-- Any number of calls, of any kind and in any order. -/
abbrev Reaches : Simulator → Simulator → Prop := Relation.ReflTransGen Step

/-- A state that calls lead to from a new simulator, whatever the size of its session table. -/
def Reachable (sim : Simulator) : Prop := ∃ maxSessions, Reaches { maxSessions } sim

/-- The nonce was drawn between the two states. -/
def Fresh (before after : Simulator) (nonce : Digest) : Prop :=
  ∃ count, before.nonceCounter ≤ count ∧ count < after.nonceCounter ∧ nonce = nonceAfter count

/-- The session under the handle, if it is still open, has a nonce drawn between the two states. -/
def Renewed (before after : Simulator) (handle : Handle) : Prop :=
  ∀ session, after.sessions.find? handle = some session → Fresh before after session.nonceEven

/-- What can have become of the sessions between two states. -/
structure Evolves (before after : Simulator) : Prop extends NoWrap before after where
  /-- A session keeps its secret, and a handle that was not in use is a new one. -/
  origin : ∀ handle session, after.sessions.find? handle = some session →
    (∃ nonceEven, before.sessions.find? handle = some { session with nonceEven }) ∨
      before.nextSession ≤ handle ∧ handle < after.nextSession
  /-- A session is as it was, or has a new nonce. -/
  nonce : ∀ handle session, after.sessions.find? handle = some session →
    before.sessions.find? handle = some session ∨ Fresh before after session.nonceEven

theorem Fresh.widen {before middle after later : Simulator} {nonce : Digest}
    (h : Fresh middle after nonce) (hbefore : before.nonceCounter ≤ middle.nonceCounter)
    (hlater : after.nonceCounter ≤ later.nonceCounter) : Fresh before later nonce := by
  obtain ⟨count, hlow, hhigh, hnonce⟩ := h
  exact ⟨count, UInt32.le_trans hbefore hlow, UInt32.lt_of_lt_of_le hhigh hlater, hnonce⟩

namespace Evolves

/-- Nothing happens to sessions that stay as they are. -/
theorem of_sessions {before after : Simulator} (hwrap : NoWrap before after)
    (hsessions : after.sessions = before.sessions) : Evolves before after where
  toNoWrap := hwrap
  origin _ session h := .inl ⟨session.nonceEven, hsessions ▸ h⟩
  nonce _ _ h := .inl (hsessions ▸ h)

/-- Calls that touch neither sessions nor counters. -/
theorem of_eq {before after : Simulator} (hsessions : after.sessions = before.sessions)
    (hhandles : after.nextSession = before.nextSession)
    (hnonces : after.nonceCounter = before.nonceCounter) : Evolves before after :=
  of_sessions ⟨UInt32.le_of_eq hhandles.symm, UInt32.le_of_eq hnonces.symm⟩ hsessions

theorem refl (sim : Simulator) : Evolves sim sim := of_eq rfl rfl rfl

theorem trans {before middle after : Simulator} (first : Evolves before middle)
    (second : Evolves middle after) : Evolves before after where
  handles := UInt32.le_trans first.handles second.handles
  nonces := UInt32.le_trans first.nonces second.nonces
  origin handle session h := by
    obtain ⟨nonceEven, hmiddle⟩ | ⟨hlow, hhigh⟩ := second.origin handle session h
    · obtain hbefore | ⟨hlow, hhigh⟩ := first.origin handle _ hmiddle
      · exact .inl hbefore
      · exact .inr ⟨hlow, UInt32.lt_of_lt_of_le hhigh second.handles⟩
    · exact .inr ⟨UInt32.le_trans first.handles hlow, hhigh⟩
  nonce handle session h := by
    obtain hmiddle | hfresh := second.nonce handle session h
    · obtain hbefore | hfresh := first.nonce handle session hmiddle
      · exact .inl hbefore
      · exact .inr (hfresh.widen (UInt32.le_refl _) second.nonces)
    · exact .inr (hfresh.widen first.nonces (UInt32.le_refl _))

/-- A session that was renewed stays renewed. -/
theorem renewed {before middle after : Simulator} {handle : Handle} (first : NoWrap before middle)
    (hrenewed : Renewed before middle handle) (second : Evolves middle after) :
    Renewed before after handle := by
  intro session h
  obtain hmiddle | hfresh := second.nonce handle session h
  · exact (hrenewed session hmiddle).widen (UInt32.le_refl _) second.nonces
  · exact hfresh.widen first.nonces (UInt32.le_refl _)

end Evolves

/-! ## Single changes -/

/-- Entries may go away at any time. -/
theorem evolves_erase (sim : Simulator) (handle : Handle) :
    Evolves sim { sim with sessions := sim.sessions.erase handle } := by
  constructor
  · exact ⟨UInt32.le_refl _, UInt32.le_refl _⟩
  · intro other session h
    exact .inl ⟨session.nonceEven, (HandleTable.find?_erase_eq_some.mp h).2⟩
  · intro other session h
    exact .inl (HandleTable.find?_erase_eq_some.mp h).2

theorem evolves_drawNonce {sim : Simulator} (hwrap : sim.nonceCounter ≤ sim.nonceCounter + 1) :
    Evolves sim sim.drawNonce.2 :=
  .of_sessions ⟨UInt32.le_refl _, hwrap⟩ rfl

theorem fresh_nonceCounter {before after : Simulator}
    (hcounter : after.nonceCounter = before.nonceCounter + 1)
    (hwrap : before.nonceCounter ≤ after.nonceCounter) :
    Fresh before after (nonceAfter before.nonceCounter) := by
  refine ⟨before.nonceCounter, UInt32.le_refl _, ?_, rfl⟩
  rw [hcounter] at hwrap ⊢
  grind

/-- An entry with a nonce that was just drawn takes the place of the handle's. -/
theorem evolves_insert {before after : Simulator} {handle : Handle} {session : SimulatorSession}
    (hwrap : NoWrap before after) (hfresh : Fresh before after session.nonceEven)
    (hsessions : after.sessions = before.sessions.insert handle session)
    (horigin : (∃ nonceEven, before.sessions.find? handle = some { session with nonceEven }) ∨
      before.nextSession ≤ handle ∧ handle < after.nextSession) : Evolves before after := by
  constructor
  · exact hwrap
  · intro other found h
    rw [hsessions] at h
    rcases HandleTable.find?_insert_eq_some.mp h with ⟨rfl, rfl⟩ | ⟨_, hkept⟩
    · exact horigin
    · exact .inl ⟨found.nonceEven, hkept⟩
  · intro other found h
    rw [hsessions] at h
    rcases HandleTable.find?_insert_eq_some.mp h with ⟨rfl, rfl⟩ | ⟨_, hkept⟩
    · exact .inr hfresh
    · exact .inl hkept

theorem evolves_opened {secret : Digest} {sim : Simulator}
    (hwrap : NoWrap sim (sim.opened secret)) : Evolves sim (sim.opened secret) := by
  have hhandles : sim.nextSession ≤ sim.nextSession + 1 := hwrap.handles
  exact evolves_insert hwrap (fresh_nonceCounter rfl hwrap.nonces) rfl
    (.inr ⟨UInt32.le_refl _, (by grind : sim.nextSession < sim.nextSession + 1)⟩)

/-! ## Settling blocks -/

section Settle

variable {block : CommandAuth} {session : SimulatorSession} {sim : Simulator}

theorem renewed_settle (hwrap : sim.nonceCounter ≤ sim.nonceCounter + 1) :
    Renewed sim (sim.settle block session) block.authHandle := by
  intro found h
  rw [find?_settle_self] at h
  unfold SimulatorSession.rolled at h
  split at h
  · cases h
    exact fresh_nonceCounter rfl hwrap
  · cases h

theorem evolves_settle (hfind : sim.sessions.find? block.authHandle = some session)
    (hwrap : sim.nonceCounter ≤ sim.nonceCounter + 1) : Evolves sim (sim.settle block session) := by
  unfold settle
  split
  · exact evolves_insert ⟨UInt32.le_refl _, hwrap⟩ (fresh_nonceCounter rfl hwrap) rfl
      (.inl ⟨session.nonceEven, hfind⟩)
  · exact (evolves_drawNonce hwrap).trans (evolves_erase _ _)

end Settle

/-- The sessions of the blocks are renewed, and all others are left alone. -/
theorem Settles.evolves {blocks : List CommandAuth} {sim next : Simulator}
    (h : Settles blocks sim next)
    (hroom : sim.nonceCounter.toNat + blocks.length < 0x100000000) :
    Evolves sim next ∧ ∀ block ∈ blocks, Renewed sim next block.authHandle := by
  induction h with
  | nil => exact ⟨.refl _, nofun⟩
  | @cons block blocks session sim next hfind _ ih =>
    rw [List.length_cons] at hroom
    have hcounter : (sim.nonceCounter + 1).toNat = sim.nonceCounter.toNat + 1 :=
      toNat_succ (by omega)
    have hdrawn : sim.nonceCounter ≤ sim.nonceCounter + 1 := by
      rw [UInt32.le_iff_toNat_le, hcounter]
      omega
    have hfirst := evolves_settle hfind hdrawn
    obtain ⟨hevolves, hrenewed⟩ := ih (by
      change (sim.nonceCounter + 1).toNat + _ < _
      omega)
    refine ⟨hfirst.trans hevolves, ?_⟩
    intro other hmem
    rcases List.mem_cons.mp hmem with rfl | hmem
    · exact hevolves.renewed hfirst.toNoWrap (renewed_settle hdrawn)
    · intro found hfound
      exact (hrenewed other hmem found hfound).widen hfirst.nonces (UInt32.le_refl _)

/-! ## Commands -/

/-- A command that is done moves only the sessions of its blocks. -/
theorem evolves_settled {command : AuthorizedCommand} {blocks : List CommandAuth}
    {sim next : Simulator} (h : Settles blocks (sim.performed command) next)
    (hcount : blocks.length ≤ 2) (hwrap : NoWrap sim next) :
    Evolves sim next ∧ ∀ block ∈ blocks, Renewed sim next block.authHandle := by
  have hmiddle : Evolves sim (sim.performed command) :=
    .of_eq (sessions_performed ..) (nextSession_performed ..) (nonceCounter_performed ..)
  have hle := hwrap.nonces
  rw [h.nonceCounter_eq, nonceCounter_performed] at hle
  have hroom : (sim.performed command).nonceCounter.toNat + blocks.length < 0x100000000 := by
    rw [nonceCounter_performed]
    exact toNat_add_lt (by omega) hle
  obtain ⟨hevolves, hrenewed⟩ := h.evolves hroom
  refine ⟨hmiddle.trans hevolves, ?_⟩
  intro block hmem session hfind
  exact (hrenewed block hmem session hfind).widen hmiddle.nonces (UInt32.le_refl _)

/-- An accepted command renews the sessions that its blocks name. -/
theorem evolves_of_accepted {command : AuthorizedCommand} {keyHandle : Handle}
    {params body : Bytes} {auths : List CommandAuth} {sim next : Simulator}
    (h : sim.runAuthorized command keyHandle params auths = some (.ok body, next))
    (hcount : auths.length ≤ 2) (hwrap : NoWrap sim next) :
    Evolves sim next ∧ ∀ block ∈ auths, Renewed sim next block.authHandle := by
  obtain ⟨_, _, output, middle, answers, hperform, hanswer, _⟩ := runAuthorized_eq_ok.mp h
  obtain ⟨rfl, _⟩ := perform_eq_ok hperform
  exact evolves_settled (settles_of_answerAuths hanswer) hcount hwrap

/-- One case for each kind of effect. -/
theorem Effect.evolves {request : Request} {sim next : Simulator} {body : Bytes}
    (h : Effect request sim body next) (hdraws : request.draws ≤ 2) (hwrap : NoWrap sim next) :
    Evolves sim next := by
  cases h with
  | oiap => exact evolves_opened hwrap
  | osap =>
    -- the nonce of the handshake comes first
    have hle : sim.nonceCounter ≤ sim.nonceCounter + 1 + 1 := hwrap.nonces
    have hfirst : sim.nonceCounter ≤ sim.nonceCounter + 1 := by grind
    have hsecond : sim.nonceCounter + 1 ≤ sim.nonceCounter + 1 + 1 := by grind
    exact (evolves_drawNonce hfirst).trans (evolves_opened ⟨hwrap.handles, hsecond⟩)
  | @closeSession _ handle => exact evolves_erase sim handle
  | unloadKey => exact .of_eq rfl rfl rfl
  | readRegister => exact .refl _
  | authorized _ _ _ hsettles => exact (evolves_settled hsettles hdraws hwrap).1

theorem evolves_logged (ordinal : UInt32) (sim : Simulator) : Evolves sim (sim.logged ordinal) :=
  .of_eq rfl rfl rfl

theorem evolves_execute {command answer : Bytes} {sim next : Simulator}
    (h : sim.execute command = some (answer, next)) (hwrap : NoWrap sim next) :
    Evolves sim next := by
  rcases execute_cases h with ⟨_, _, _, _, hrefused⟩ |
    ⟨_, ordinal, request, _, hrequest, _, heffect⟩
  · exact .of_sessions hwrap hrefused.sessions
  · exact (evolves_logged ordinal sim).trans
      (heffect.evolves (Request.draws_le hrequest) ⟨hwrap.handles, hwrap.nonces⟩)

/-! ## Runs -/

theorem Step.evolves {before after : Simulator} (h : Step before after) : Evolves before after := by
  cases h with
  | write hwrite hwrap =>
    obtain ⟨⟨answer, final⟩, hexecute, heq⟩ := Option.map_eq_some_iff.mp hwrite
    obtain ⟨_, rfl⟩ := Prod.mk.inj heq
    exact (evolves_execute hexecute ⟨hwrap.handles, hwrap.nonces⟩).trans (.of_eq rfl rfl rfl)
  | read limit =>
    simp only [Device.read]
    split
    · exact .refl before
    · exact .of_eq rfl rfl rfl

theorem Reaches.evolves {before after : Simulator} (h : Reaches before after) :
    Evolves before after := by
  induction h with
  | refl => exact .refl before
  | tail _ hstep ih => exact ih.trans hstep.evolves

/-- The handles in use were issued, and the nonces in use were drawn. -/
structure Issued (sim : Simulator) : Prop where
  handle : ∀ handle session, sim.sessions.find? handle = some session → handle < sim.nextSession
  nonce : ∀ handle session, sim.sessions.find? handle = some session →
    ∃ count, count < sim.nonceCounter ∧ session.nonceEven = nonceAfter count

theorem Issued.evolves {before after : Simulator} (hissued : Issued before)
    (h : Evolves before after) : Issued after := by
  constructor
  · intro handle session hfind
    obtain ⟨_, hbefore⟩ | ⟨_, hhigh⟩ := h.origin handle session hfind
    · exact UInt32.lt_of_lt_of_le (hissued.handle handle _ hbefore) h.handles
    · exact hhigh
  · intro handle session hfind
    obtain hbefore | ⟨count, _, hhigh, heq⟩ := h.nonce handle session hfind
    · obtain ⟨count, hlt, heq⟩ := hissued.nonce handle session hbefore
      exact ⟨count, UInt32.lt_of_lt_of_le hlt h.nonces, heq⟩
    · exact ⟨count, hhigh, heq⟩

theorem Reachable.issued {sim : Simulator} (h : Reachable sim) : Issued sim := by
  obtain ⟨maxSessions, hreaches⟩ := h
  have hnew : Issued { maxSessions } := ⟨nofun, nofun⟩
  exact hnew.evolves (Reaches.evolves hreaches)

/-- A new simulator after one Oiap. -/
def afterOiap : Simulator :=
  { sessions := ({} : HandleTable SimulatorSession).insert 0x02000000
      ⟨nonceAfter 0, wellKnownSecret⟩
    nextSession := 0x02000001
    nonceCounter := 1
    pending := some (answer Tag.response .success
      (bigEndian 4 0x02000000 ++ (nonceAfter 0).bytes))
    ordinals := [Ordinal.oiap] }

theorem write_oiap :
    Device.write (CommandHeader.message Tag.request Ordinal.oiap []) ({} : Simulator) =
      some (.ok 10, afterOiap) := by
  have hexecute : execute (CommandHeader.message Tag.request Ordinal.oiap []) {} =
      some (answer Tag.response .success (bigEndian 4 0x02000000 ++ (nonceAfter 0).bytes),
        { afterOiap with pending := none }) := by
    rw [execute_message]
    rfl
  simp only [Device.write, hexecute, Option.map_some]
  rfl

/-- What authorizes a GetPubKey under its session. -/
def pubKeyBlock : CommandAuth :=
  { authHandle := 0x02000000
    nonceOdd := .zero 20
    continueAuthSession := true
    auth := authDigest wellKnownSecret.bytes (commandDigest Ordinal.getPubKey []) (nonceAfter 0)
      (.zero 20) true }

theorem reachable_afterOiap : Reachable afterOiap :=
  ⟨3, .single (.write write_oiap ⟨by decide, by decide⟩)⟩

end TrustedModule.Simulator
