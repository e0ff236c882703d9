import TrustedModule.Proofs.Exchange.Framing

/-!
# Handshakes on the simulator

What the simulator does when it is asked for a session: a table with room gets one under the next
handle, and a full one refuses. The nonce of an object-specific handshake is drawn in either case.
-/

set_option autoImplicit false

namespace TrustedModule

theorem OiapResponse.encode_eq (response : OiapResponse) :
    Wire.encode response =
      .ok (bigEndian 4 response.authHandle.toNat ++ response.nonceEven.bytes) := by
  simp [Wire.encode, Wire.layout, Wire.toValue, bind, Except.bind, pure, Except.pure]

theorem OsapResponse.encode_eq (response : OsapResponse) :
    Wire.encode response = .ok (bigEndian 4 response.authHandle.toNat ++
      response.nonceEven.bytes ++ response.nonceEvenOsap.bytes) := by
  simp [Wire.encode, Wire.layout, Wire.toValue, bind, Except.bind, pure, Except.pure]

namespace Simulator

/-- The simulator with a new session. -/
def opened (secret : Digest) (sim : Simulator) : Simulator :=
  { sim with
    nextSession := sim.nextSession + 1
    nonceCounter := sim.nonceCounter + 1
    sessions := sim.sessions.insert sim.nextSession ⟨nonceAfter sim.nonceCounter, secret⟩ }

theorem openSession_eq (secret : Digest) (sim : Simulator) :
    sim.openSession secret =
      if sim.maxSessions ≤ sim.sessions.size then (.error .resources, sim)
      else (.ok (sim.nextSession, nonceAfter sim.nonceCounter), sim.opened secret) := rfl

theorem runOiap_eq (sim : Simulator) :
    sim.runOiap =
      if sim.maxSessions ≤ sim.sessions.size then (.error .resources, sim)
      else
        (.ok (bigEndian 4 sim.nextSession.toNat ++ (nonceAfter sim.nonceCounter).bytes),
          sim.opened wellKnownSecret) := by
  unfold runOiap
  rw [openSession_eq]
  by_cases hfull : sim.maxSessions ≤ sim.sessions.size
  · rw [if_pos hfull, if_pos hfull]
    rfl
  · rw [if_neg hfull, if_neg hfull]
    simp only [Except.bind, OiapResponse.encode_eq]
    rfl

theorem runOsap_eq (command : OsapCommand) (sim : Simulator) :
    sim.runOsap command =
      if sim.maxSessions ≤ sim.sessions.size then (.error .resources, sim.drawNonce.2)
      else
        (.ok (bigEndian 4 sim.nextSession.toNat ++ (nonceAfter (sim.nonceCounter + 1)).bytes ++
            (nonceAfter sim.nonceCounter).bytes),
          sim.drawNonce.2.opened
            (sharedSecret wellKnownSecret (nonceAfter sim.nonceCounter) command.nonceOddOsap)) := by
  unfold runOsap
  simp only [openSession_eq, drawNonce]
  by_cases hfull : sim.maxSessions ≤ sim.sessions.size
  · rw [if_pos hfull, if_pos hfull]
    rfl
  · rw [if_neg hfull, if_neg hfull]
    simp only [Except.bind, OsapResponse.encode_eq]
    rfl

/-- Opening a session under a new handle leaves the others alone. -/
theorem find?_opened_of_ne {sim : Simulator} {handle : Handle} (secret : Digest)
    (h : handle ≠ sim.nextSession) :
    (sim.opened secret).sessions.find? handle = sim.sessions.find? handle :=
  HandleTable.find?_insert_of_ne _ _ h

theorem openSessions_opened (secret : Digest) {sim : Simulator}
    (h : sim.sessions.find? sim.nextSession = none) :
    (sim.opened secret).openSessions = sim.openSessions + 1 :=
  HandleTable.size_insert_of_none ⟨nonceAfter sim.nonceCounter, secret⟩ h

end Simulator

end TrustedModule
