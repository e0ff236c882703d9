import Mathlib.Logic.Function.Basic
import TrustedModule.Proofs.Simulator.Handles

/-!
# The books of the simulator

What holds of the tables in every state: the open sessions are those that were opened and neither
flushed nor closed since, and fit the table; all handles were given out; every nonce in use was
drawn for its session, by a draw that no other open session has; and the registers are as they were.
-/

set_option autoImplicit false

namespace TrustedModule

/-! ## Numbered nonces -/

/-- Every session has the nonce of one of the draws so far, and no two sessions of the same draw. -/
def Numbered (sessions : HandleTable SimulatorSession) (drawn : Nat) : Prop :=
  ∃ draw : Handle → Nat,
    (∀ handle session, sessions.find? handle = some session →
      1 ≤ draw handle ∧ draw handle ≤ drawn ∧
        session.nonceEven = sha1 (bigEndian 4 (draw handle))) ∧
    ∀ handle other session session', sessions.find? handle = some session →
      sessions.find? other = some session' → draw handle = draw other → handle = other

namespace Numbered

variable {sessions : HandleTable SimulatorSession} {drawn : Nat}

theorem empty : Numbered {} drawn := ⟨fun _ => 0, nofun, nofun⟩

theorem mono (h : Numbered sessions drawn) {later : Nat} (hle : drawn ≤ later) :
    Numbered sessions later := by
  obtain ⟨draw, hbounds, hinjective⟩ := h
  refine ⟨draw, ?_, hinjective⟩
  intro handle session hfind
  obtain ⟨hlow, hhigh, hnonce⟩ := hbounds handle session hfind
  exact ⟨hlow, Nat.le_trans hhigh hle, hnonce⟩

theorem erase (h : Numbered sessions drawn) (handle : Handle) :
    Numbered (sessions.erase handle) drawn := by
  obtain ⟨draw, hbounds, hinjective⟩ := h
  refine ⟨draw, ?_, ?_⟩
  · intro other session hfind
    exact hbounds other session (HandleTable.find?_erase_eq_some.mp hfind).2
  · intro first second session session' hfind hfind'
    exact hinjective first second session session' (HandleTable.find?_erase_eq_some.mp hfind).2
      (HandleTable.find?_erase_eq_some.mp hfind').2

/-- The session that gets the nonce of the next draw is told from the others by its number. -/
theorem insert (h : Numbered sessions drawn) (handle : Handle) {session : SimulatorSession}
    (hnonce : session.nonceEven = sha1 (bigEndian 4 (drawn + 1))) :
    Numbered (sessions.insert handle session) (drawn + 1) := by
  obtain ⟨draw, hbounds, hinjective⟩ := h
  -- the other sessions keep their numbers, which are all below the new one
  have hkept : ∀ other found, other ≠ handle → sessions.find? other = some found →
      Function.update draw handle (drawn + 1) other = draw other ∧ draw other ≤ drawn := by
    intro other found hne hfind
    exact ⟨Function.update_of_ne hne _ _, (hbounds other found hfind).2.1⟩
  refine ⟨Function.update draw handle (drawn + 1), ?_, ?_⟩
  · intro other found hfind
    rcases HandleTable.find?_insert_eq_some.mp hfind with ⟨rfl, rfl⟩ | ⟨hne, hfind⟩
    · rw [Function.update_self]
      exact ⟨Nat.le_add_left 1 drawn, Nat.le_refl _, hnonce⟩
    · obtain ⟨hlow, hhigh, heven⟩ := hbounds other found hfind
      rw [(hkept other found hne hfind).1]
      exact ⟨hlow, Nat.le_succ_of_le hhigh, heven⟩
  · intro first second found found' hfirst hsecond heq
    rcases HandleTable.find?_insert_eq_some.mp hfirst with ⟨rfl, _⟩ | ⟨hne, hfirst⟩
    · rcases HandleTable.find?_insert_eq_some.mp hsecond with ⟨rfl, _⟩ | ⟨hne, hsecond⟩
      · rfl
      · obtain ⟨hdraw, hle⟩ := hkept second found' hne hsecond
        rw [Function.update_self, hdraw] at heq
        omega
    · obtain ⟨hdraw, hle⟩ := hkept first found hne hfirst
      rcases HandleTable.find?_insert_eq_some.mp hsecond with ⟨rfl, _⟩ | ⟨hne', hsecond⟩
      · rw [Function.update_self, hdraw] at heq
        omega
      · rw [hdraw, (hkept second found' hne' hsecond).1] at heq
        exact hinjective first second found found' hfirst hsecond heq

end Numbered

namespace Simulator

/-- The nonces of the open sessions, under the counter of the draws. -/
def DistinctNonces (sim : Simulator) : Prop := Numbered sim.sessions sim.nonceCounter.toNat

section Nonces

variable {sim next : Simulator}

/-- The session under the handle gets the next nonce. -/
theorem DistinctNonces.insert (h : DistinctNonces sim) {handle : Handle} {secret : Digest}
    (hroom : sim.nonceCounter.toNat + 1 < 0x100000000)
    (hsessions : next.sessions =
      sim.sessions.insert handle ⟨nonceAfter sim.nonceCounter, secret⟩)
    (hcounter : next.nonceCounter = sim.nonceCounter + 1) : DistinctNonces next := by
  unfold DistinctNonces
  rw [hsessions, hcounter, toNat_succ hroom]
  apply Numbered.insert h
  rw [← toNat_succ hroom]
  rfl

theorem DistinctNonces.settle (h : DistinctNonces sim) {block : CommandAuth}
    {session : SimulatorSession} (hroom : sim.nonceCounter.toNat + 1 < 0x100000000) :
    DistinctNonces (sim.settle block session) := by
  cases hkeep : block.continueAuthSession with
  | true =>
    have hsessions : (sim.settle block session).sessions = sim.sessions.insert block.authHandle
        ⟨nonceAfter sim.nonceCounter, session.secret⟩ := by
      unfold Simulator.settle
      rw [hkeep]
      rfl
    exact h.insert hroom hsessions rfl
  | false =>
    have hsessions : (sim.settle block session).sessions = sim.sessions.erase block.authHandle := by
      unfold Simulator.settle
      rw [hkeep]
      rfl
    unfold DistinctNonces
    rw [hsessions]
    refine (Numbered.erase h block.authHandle).mono ?_
    exact Nat.le_trans (Nat.le_succ _) (Nat.le_of_eq (toNat_succ hroom).symm)

theorem Settles.distinctNonces {blocks : List CommandAuth} (h : Settles blocks sim next)
    (hroom : sim.nonceCounter.toNat + blocks.length < 0x100000000) (hnonces : DistinctNonces sim) :
    DistinctNonces next := by
  induction h with
  | nil => exact hnonces
  | @cons block blocks session sim next _ _ ih =>
    rw [List.length_cons] at hroom
    have hcounter : (sim.settle block session).nonceCounter.toNat = sim.nonceCounter.toNat + 1 :=
      toNat_succ (by omega)
    exact ih (by omega) (hnonces.settle (by omega))

theorem DistinctNonces.drawNonce (h : DistinctNonces sim)
    (hroom : sim.nonceCounter.toNat + 1 < 0x100000000) : DistinctNonces sim.drawNonce.2 := by
  have hle : sim.nonceCounter.toNat ≤ sim.drawNonce.2.nonceCounter.toNat :=
    Nat.le_trans (Nat.le_succ _) (Nat.le_of_eq (toNat_succ hroom).symm)
  exact Numbered.mono h hle

theorem Effect.distinctNonces {request : Request} {body : Bytes}
    (h : Effect request sim body next)
    (hroom : sim.nonceCounter.toNat + request.draws < 0x100000000) (hnonces : DistinctNonces sim) :
    DistinctNonces next := by
  cases h with
  | oiap => exact hnonces.insert hroom rfl rfl
  | osap =>
    have hroom : sim.nonceCounter.toNat + 2 < 0x100000000 := hroom
    have hdrawn : sim.drawNonce.2.nonceCounter.toNat = sim.nonceCounter.toNat + 1 :=
      toNat_succ (by omega)
    exact (hnonces.drawNonce (by omega)).insert (by omega) rfl rfl
  | closeSession => exact Numbered.erase hnonces _
  | unloadKey | readRegister => exact hnonces
  | @authorized _ _ command _ _ _ _ _ _ _ hsettles =>
    refine hsettles.distinctNonces ?_ ?_
    · rw [nonceCounter_performed]
      exact hroom
    · unfold DistinctNonces
      rw [sessions_performed, nonceCounter_performed]
      exact hnonces

end Nonces

/-! ## The books -/

/-- What holds of a simulator after the events, which started with an empty table. -/
structure Accounted (events : List Event) (sim : Simulator) : Prop where
  bounded : sim.openSessions ≤ sim.maxSessions
  /-- The open sessions are those that were opened and neither flushed nor closed by a block. -/
  balance : sim.openSessions + tally Request.flushes events + tally Request.closes events =
    tally Request.opens events
  sessionHandles : SessionHandles sim
  keyHandles : KeyHandles events sim
  nonces : DistinctNonces sim
  registers : sim.registers = (List.range 24).map fun i => sha1 [UInt8.ofNat i]

theorem accounted_new (maxSessions : Nat) : Accounted [] { maxSessions } where
  bounded := Nat.zero_le maxSessions
  balance := rfl
  sessionHandles := sessionHandles_new maxSessions
  keyHandles := keyHandles_new maxSessions
  nonces := .empty
  registers := rfl

section Step

variable {action : Action} {sim next : Simulator}

theorem act_openSessions (hact : act action sim = some next)
    (hnew : sim.sessions.find? sim.nextSession = none) :
    let event : Event := ⟨sim, action, next⟩
    next.openSessions + event.weight Request.flushes + event.weight Request.closes =
      sim.openSessions + event.weight Request.opens := by
  rcases act_cases hact with hquiet | ⟨_, _, request, _, middle, haccepted, heffect, rfl⟩
  · simp only [hquiet.weight_eq, Nat.add_zero]
    exact congrArg HandleTable.size hquiet.sessions
  · simp only [Event.weight_of_accepted? haccepted]
    exact heffect.openSessions_eq hnew

theorem act_bounded (hact : act action sim = some next)
    (hnew : sim.sessions.find? sim.nextSession = none)
    (hsize : next.maxSessions = sim.maxSessions) (hle : sim.openSessions ≤ sim.maxSessions) :
    next.openSessions ≤ next.maxSessions := by
  rcases act_cases hact with hquiet | ⟨_, _, request, _, middle, _, heffect, rfl⟩
  · unfold openSessions
    rw [hquiet.sessions, hsize]
    exact hle
  · exact heffect.openSessions_le hnew hle

theorem act_distinctNonces (hact : act action sim = some next)
    (hwrap : sim.nonceCounter ≤ next.nonceCounter) (h : DistinctNonces sim) :
    DistinctNonces next := by
  rcases act_cases hact with hquiet | ⟨_, _, request, _, middle, haccepted, heffect, rfl⟩
  · unfold DistinctNonces
    rw [hquiet.sessions]
    exact Numbered.mono h (UInt32.le_iff_toNat_le.mp hwrap)
  · obtain ⟨command, hcommand⟩ := Event.exists_command haccepted
    have hdraws := Request.draws_le hcommand
    have hle : sim.nonceCounter ≤ middle.nonceCounter := hwrap
    rw [heffect.nonceCounter_eq] at hle
    exact heffect.distinctNonces (toNat_add_lt (by omega) hle) h

theorem Accounted.act {events : List Event} (h : Accounted events sim)
    (hact : act action sim = some next) (hsize : next.maxSessions = sim.maxSessions)
    (hadvances : Event.Advances ⟨sim, action, next⟩) :
    Accounted (⟨sim, action, next⟩ :: events) next := by
  have hnew := h.sessionHandles.find?_nextSession
  constructor
  · exact act_bounded hact hnew hsize h.bounded
  · have hevent := act_openSessions hact hnew
    have hbefore := h.balance
    simp only [tally_cons]
    dsimp only at hevent
    omega
  · exact h.sessionHandles.act hact hadvances.sessions
  · exact h.keyHandles.act hact hadvances.keys
  · exact act_distinctNonces hact hadvances.nonces h.nonces
  · rw [act_registers hact]
    exact h.registers

end Step

/-- The books are right in every state of a simulator whose table keeps its size and whose counters
do not start over. -/
theorem books_balance {sim : Simulator} {maxSessions : Nat} {events : List Event}
    (h : History { maxSessions } events sim)
    (hsize : ∀ event ∈ events, event.after.maxSessions = event.before.maxSessions)
    (hadvances : ∀ event ∈ events, event.Advances) : Accounted events sim := by
  induction h with
  | nil => exact accounted_new maxSessions
  | cons _ hact ih =>
    obtain ⟨hlast, hsize⟩ := List.forall_mem_cons.mp hsize
    obtain ⟨hnow, hadvances⟩ := List.forall_mem_cons.mp hadvances
    exact (ih hsize hadvances).act hact hlast hnow

/-- One session is opened, and closed by the block of a LoadKey2. -/
theorem books_balance_loadKey : ∃ next events, History {} events next ∧
    Accounted events next ∧ tally Request.opens events = 1 ∧ tally Request.closes events = 1 := by
  obtain ⟨_, next, hwrite, hcode, hsize, hadvances⟩ := write_loadKey
  have haccepted : Event.accepted? ⟨afterOiap, .write loadKeyRequest, next⟩ = _ :=
    (Event.accepted?_of_returnCode? hcode).trans ofCommand?_loadKey
  have hhistory := History.cons (.cons .nil (act_of_write write_oiap)) (act_of_write hwrite)
  refine ⟨next, _, hhistory, books_balance hhistory ?_ ?_, ?_, ?_⟩
  · exact List.forall_mem_cons.mpr ⟨hsize, List.forall_mem_singleton.mpr rfl⟩
  · exact List.forall_mem_cons.mpr
      ⟨hadvances, List.forall_mem_singleton.mpr ⟨by decide, by decide, by decide⟩⟩
  · rw [tally_cons, tally_cons, Event.weight_of_accepted? accepted?_oiap,
      Event.weight_of_accepted? haccepted]
    rfl
  · rw [tally_cons, tally_cons, Event.weight_of_accepted? accepted?_oiap,
      Event.weight_of_accepted? haccepted]
    rfl

end Simulator

end TrustedModule
