import TrustedModule.Proofs.Simulator.Handles

/-!
# Outcomes of commands

What a single command leaves behind, for every return code. A refusal changes nothing but the count
of nonces, and that only where a handshake finds the session table full. An accepted command opens
one session, releases one session or key, reads a register, or moves the sessions of its blocks.
-/

set_option autoImplicit false

namespace TrustedModule.Simulator

/-- The simulators differ at most in the answer that waits to be read and in the ordinals noted. -/
def Alike (sim other : Simulator) : Prop :=
  sim = { other with pending := sim.pending, ordinals := sim.ordinals }

/-- How the blocks of an accepted command move the sessions. A nonce is drawn for each block. -/
structure Moves (blocks : List CommandAuth) (before after : Simulator) : Prop where
  /-- The last block of a session closes it, or gives it the nonce that was drawn for the block. -/
  named : ∀ (i : Nat) (block : CommandAuth), blocks[i]? = some block →
    (∀ j other, i < j → blocks[j]? = some other → other.authHandle ≠ block.authHandle) →
    ∃ session, before.sessions.find? block.authHandle = some session ∧
      after.sessions.find? block.authHandle = session.rolled block.continueAuthSession
        (nonceAfter (before.nonceCounter + UInt32.ofNat i))
  /-- No block but the last one closes its session. -/
  ordered : ∀ (i j : Nat) (block other : CommandAuth), i < j → blocks[i]? = some block →
    blocks[j]? = some other → other.authHandle = block.authHandle →
    block.continueAuthSession = true
  unnamed : ∀ handle, handle ∉ blocks.map CommandAuth.authHandle →
    after.sessions.find? handle = before.sessions.find? handle

/-- Only the sessions and the count of nonces matter. -/
theorem Settles.moves {blocks : List CommandAuth} {middle next before after : Simulator}
    (h : Settles blocks middle next) (hsessions : middle.sessions = before.sessions)
    (hnonces : middle.nonceCounter = before.nonceCounter)
    (hafter : next.sessions = after.sessions) : Moves blocks before after := by
  constructor
  · intro i block hblock hlast
    rw [← hsessions, ← hnonces, ← hafter]
    exact h.find?_of_last hblock hlast
  · intro i j block other hlt hblock hother hsame
    exact h.keeps_of_later hlt hblock hother hsame
  · intro handle hmem
    rw [← hsessions, ← hafter]
    exact h.find?_of_not_mem hmem

/-- What an accepted request has done. -/
def Did (before after : Simulator) : Request → Prop
  | .oiap =>
    before.openSessions < before.maxSessions ∧ Alike after (before.opened wellKnownSecret)
  | .osap command =>
    before.openSessions < before.maxSessions ∧
      Alike after (before.drawNonce.2.opened
        (sharedSecret wellKnownSecret (nonceAfter before.nonceCounter) command.nonceOddOsap))
  | .flushSpecific handle resource =>
    (resource = Resource.auth ∧ before.sessions.contains handle = true ∧
      Alike after { before with sessions := before.sessions.erase handle }) ∨
    (resource = Resource.key ∧ before.hasKey handle = true ∧
      Alike after { before with keys := before.keys.filter (· != handle) })
  | .pcrRead index => (∃ value, before.register? index.toNat = some value) ∧ Alike after before
  | .authorized command keyHandle params blocks =>
    before.hasKey keyHandle = true ∧
      (∀ block ∈ blocks, before.Authentic (commandDigest command.ordinal params) block) ∧
      Moves blocks before after ∧
      Alike after
        { before.performed command with
          sessions := after.sessions
          nonceCounter := before.nonceCounter + UInt32.ofNat blocks.length }

theorem performed_logged (command : AuthorizedCommand) (ordinal : UInt32) (sim : Simulator) :
    (sim.logged ordinal).performed command = (sim.performed command).logged ordinal := by
  unfold performed
  split <;> rfl

theorem Effect.did {request : Request} {sim middle : Simulator} {body : Bytes} {ordinal : UInt32}
    (h : Effect request (sim.logged ordinal) body middle) (pending : Option Bytes) :
    Did sim { middle with pending } request := by
  cases h with
  | oiap hroom => exact ⟨hroom, rfl⟩
  | osap command hroom => exact ⟨hroom, rfl⟩
  | closeSession hfind => exact .inl ⟨rfl, HandleTable.contains_iff.mpr ⟨_, hfind⟩, rfl⟩
  | unloadKey hkey => exact .inr ⟨rfl, hkey, rfl⟩
  | readRegister hregister => exact ⟨⟨_, hregister⟩, rfl⟩
  | authorized hkey hauthentic _ hsettles =>
    rw [performed_logged] at hsettles
    refine ⟨hkey, hauthentic, ?_, ?_⟩
    · exact hsettles.moves (sessions_performed ..) (nonceCounter_performed ..) rfl
    · have hcounter := hsettles.nonceCounter_eq
      rw [show ((sim.performed _).logged ordinal).nonceCounter = sim.nonceCounter from
        nonceCounter_performed ..] at hcounter
      unfold Alike
      rw [hsettles.next_eq, hcounter]
      rfl

/-- Whatever is written to a simulator that some history led to, if it does not halt: a command that
is refused leaves tables, registers and counters as they are, but for the nonce of a handshake on a
full table, and an accepted one does what its request says and no more. The next session has a new
handle, as long as their counter has not started over. -/
theorem command_effects {sim next : Simulator} {events : List Event} {command : Bytes}
    {written : Except String Nat} (hhistory : History {} events sim)
    (hwrite : Device.write command sim = some (written, next)) :
    ∃ code, next.returnCode? = some code ∧
      (code ≠ 0 → Refused (Request.ofCommand? command) sim next) ∧
      (code = 0 → ∃ request, Request.ofCommand? command = some request ∧ Did sim next request) ∧
      ((∀ event ∈ events, event.before.nextSession ≤ event.after.nextSession) →
        sim.sessions.find? sim.nextSession = none) := by
  have hnew := fun hwrap => (hhistory.sessionHandles (sessionHandles_new 3) hwrap).find?_nextSession
  rcases write_cases hwrite with ⟨code, hcode, hreturn, hrefused⟩ |
    ⟨tag, ordinal, request, body, middle, hrequest, heffect, hreturn, rfl⟩
  · exact ⟨code, hreturn, fun _ => hrefused, fun hzero => absurd hzero hcode, hnew⟩
  · exact ⟨0, hreturn, fun hne => absurd rfl hne, fun _ => ⟨request, hrequest, heffect.did _⟩, hnew⟩

/-- The LoadKey2 that closes the session of `afterOiap`. -/
theorem command_effects_loadKey : ∃ written next,
    Device.write loadKeyRequest afterOiap = some (written, next) ∧ next.returnCode? = some 0 ∧
      Did afterOiap next
        (.authorized .loadKey2 Handle.storageRootKey keyParams [loadKeyBlock]) ∧
      afterOiap.sessions.find? afterOiap.nextSession = none := by
  obtain ⟨written, next, hwrite, hcode, _, _⟩ := write_loadKey
  obtain ⟨code, hreturn, _, haccepted, hnew⟩ :=
    command_effects (.cons .nil (act_of_write write_oiap)) hwrite
  obtain rfl : code = 0 := Option.some.inj (hreturn.symm.trans hcode)
  obtain ⟨request, hrequest, hdid⟩ := haccepted rfl
  cases hrequest.symm.trans ofCommand?_loadKey
  exact ⟨written, next, hwrite, hcode, hdid, hnew (List.forall_mem_singleton.mpr (by decide))⟩

end TrustedModule.Simulator
