import TrustedModule.Proofs.Simulator.Authorization

/-!
# Settling blocks

The blocks of an accepted command are answered one after the other, and each answer moves the
session of its block. What becomes of a session is up to the last block that names it. A block that
closes its session is that last one: no later block could be answered.
-/

set_option autoImplicit false

namespace TrustedModule

/-- Where a session rolls twice, the second time decides. -/
theorem SimulatorSession.rolled_of_rolled {session next : SimulatorSession} {keep : Bool}
    {nonceEven : Digest} (h : session.rolled keep nonceEven = some next) (keep' : Bool)
    (nonceEven' : Digest) : next.rolled keep' nonceEven' = session.rolled keep' nonceEven' := by
  unfold rolled at h
  split at h
  · cases h
    rfl
  · cases h

/-! ## Counters -/

theorem toNat_succ {counter : UInt32} (hroom : counter.toNat + 1 < 0x100000000) :
    (counter + 1).toNat = counter.toNat + 1 := by
  rw [UInt32.toNat_add]
  exact Nat.mod_eq_of_lt hroom

/-- A counter that does not come out smaller has not wrapped around. -/
theorem toNat_add_lt {counter : UInt32} {count : Nat} (hcount : count < 0x100000000)
    (hle : counter ≤ counter + UInt32.ofNat count) : counter.toNat + count < 0x100000000 := by
  rw [UInt32.le_iff_toNat_le, UInt32.toNat_add, UInt32.toNat_ofNat'] at hle
  have := counter.toNat_lt
  omega

namespace Simulator

/-! ## Blocks -/

/-- The blocks are settled in order, each for a session that is open when its turn comes. -/
inductive Settles : List CommandAuth → Simulator → Simulator → Prop
  | nil {sim : Simulator} : Settles [] sim sim
  | cons {block : CommandAuth} {blocks : List CommandAuth} {session : SimulatorSession}
      {sim next : Simulator} (hfind : sim.sessions.find? block.authHandle = some session)
      (hrest : Settles blocks (sim.settle block session) next) : Settles (block :: blocks) sim next

theorem settles_of_answerAuths {outDigest : Digest} {blocks : List CommandAuth}
    {answers : List ResponseAuth} {sim next : Simulator}
    (h : answerAuths outDigest blocks sim = some (answers, next)) : Settles blocks sim next := by
  induction blocks generalizing sim answers with
  | nil =>
    cases h
    exact .nil
  | cons block blocks ih =>
    rw [answerAuths_cons] at h
    obtain ⟨session, hfind, h⟩ := Option.bind_eq_some_iff.mp h
    obtain ⟨⟨rest, final⟩, hrest, heq⟩ := Option.map_eq_some_iff.mp h
    cases heq
    exact .cons hfind (ih hrest)

/-- A block that closes its session takes one entry away, any other none. -/
theorem size_settle {block : CommandAuth} {session : SimulatorSession} {sim : Simulator}
    (h : sim.sessions.find? block.authHandle = some session) :
    (sim.settle block session).sessions.size + (if block.continueAuthSession then 0 else 1) =
      sim.sessions.size := by
  unfold settle
  cases block.continueAuthSession
  · exact HandleTable.size_erase h
  · exact HandleTable.size_insert_of_some
      { session with nonceEven := nonceAfter sim.nonceCounter } h

namespace Settles

variable {block : CommandAuth} {blocks : List CommandAuth} {sim next : Simulator}

/-- Only the sessions and the count of nonces move. -/
theorem next_eq (h : Settles blocks sim next) :
    next = { sim with sessions := next.sessions, nonceCounter := next.nonceCounter } := by
  induction h with
  | nil => rfl
  | cons _ _ ih => exact ih

/-- One nonce is drawn for each block. -/
theorem nonceCounter_eq (h : Settles blocks sim next) :
    next.nonceCounter = sim.nonceCounter + UInt32.ofNat blocks.length := by
  induction h with
  | nil => exact (UInt32.add_zero _).symm
  | cons _ _ ih =>
    rw [ih, List.length_cons, Nat.add_comm, UInt32.ofNat_add, ← UInt32.add_assoc]
    rfl

theorem size_eq (h : Settles blocks sim next) :
    next.sessions.size + blocks.countP (fun block => !block.continueAuthSession) =
      sim.sessions.size := by
  induction h with
  | nil => rfl
  | @cons block blocks session sim next hfind _ ih =>
    have hsettle := size_settle hfind
    have hclosed : (if (!block.continueAuthSession) = true then 1 else 0) =
        if block.continueAuthSession then 0 else 1 := by
      cases block.continueAuthSession <;> rfl
    rw [List.countP_cons, hclosed, ← Nat.add_assoc, ih]
    exact hsettle

/-- Sessions that no block names are left alone. -/
theorem find?_of_not_mem (h : Settles blocks sim next) {handle : Handle}
    (hmem : handle ∉ blocks.map CommandAuth.authHandle) :
    next.sessions.find? handle = sim.sessions.find? handle := by
  induction h with
  | nil => rfl
  | cons _ _ ih =>
    rw [List.map_cons, List.mem_cons, not_or] at hmem
    rw [ih hmem.2, find?_settle_of_ne _ _ hmem.1]

/-- Every block names a session that was open from the start. -/
theorem open_of_mem (h : Settles blocks sim next) (hmem : block ∈ blocks) :
    ∃ session, sim.sessions.find? block.authHandle = some session := by
  induction h with
  | nil => cases hmem
  | @cons first _ session _ _ hfind _ ih =>
    by_cases hsame : block.authHandle = first.authHandle
    · exact ⟨session, hsame ▸ hfind⟩
    · rcases List.mem_cons.mp hmem with rfl | hmem
      · exact absurd rfl hsame
      · obtain ⟨found, hfound⟩ := ih hmem
        exact ⟨found, (find?_settle_of_ne _ _ hsame).symm.trans hfound⟩

/-- Of several blocks of one session only the last may close it. -/
theorem keeps_of_later (h : Settles blocks sim next) {i j : Nat} {other : CommandAuth}
    (hlt : i < j) (hblock : blocks[i]? = some block) (hother : blocks[j]? = some other)
    (hsame : other.authHandle = block.authHandle) : block.continueAuthSession = true := by
  induction h generalizing i j with
  | nil => simp at hblock
  | cons hfind hrest ih =>
    obtain ⟨j, rfl⟩ := Nat.exists_eq_add_one_of_ne_zero (Nat.ne_zero_of_lt hlt)
    rw [List.getElem?_cons_succ] at hother
    cases i with
    | zero =>
      -- the later block found the session open, after the first one was settled
      cases hblock
      obtain ⟨session, hopen⟩ := hrest.open_of_mem (List.mem_of_getElem? hother)
      rw [hsame, find?_settle_self] at hopen
      unfold SimulatorSession.rolled at hopen
      split at hopen
      · assumption
      · cases hopen
    | succ i => exact ih (Nat.lt_of_succ_lt_succ hlt) hblock hother

/-- The last block of a session decides what becomes of it. -/
theorem find?_of_last (h : Settles blocks sim next) {i : Nat} (hblock : blocks[i]? = some block)
    (hlast : ∀ j other, i < j → blocks[j]? = some other →
      other.authHandle ≠ block.authHandle) :
    ∃ session, sim.sessions.find? block.authHandle = some session ∧
      next.sessions.find? block.authHandle = session.rolled block.continueAuthSession
        (nonceAfter (sim.nonceCounter + UInt32.ofNat i)) := by
  induction h generalizing i with
  | nil => simp at hblock
  | @cons first rest session sim _ hfind hrest ih =>
    cases i with
    | zero =>
      cases hblock
      refine ⟨session, hfind, ?_⟩
      have hmem : block.authHandle ∉ rest.map CommandAuth.authHandle := by
        intro hmem
        obtain ⟨other, hother, heq⟩ := List.mem_map.mp hmem
        obtain ⟨j, hj⟩ := List.mem_iff_getElem?.mp hother
        exact hlast (j + 1) other (Nat.succ_pos j) hj heq
      rw [hrest.find?_of_not_mem hmem, find?_settle_self]
      exact congrArg (session.rolled _ <| nonceAfter ·) (UInt32.add_zero _).symm
    | succ i =>
      obtain ⟨found, hfound, hnext⟩ := ih hblock
        fun j other hlt hj => hlast (j + 1) other (Nat.succ_lt_succ hlt) hj
      have hcount : (sim.settle first session).nonceCounter + UInt32.ofNat i =
          sim.nonceCounter + UInt32.ofNat (i + 1) := by
        rw [Nat.add_comm i 1, UInt32.ofNat_add, ← UInt32.add_assoc]
        rfl
      rw [hcount] at hnext
      by_cases hsame : block.authHandle = first.authHandle
      · rw [hsame, find?_settle_self] at hfound
        rw [SimulatorSession.rolled_of_rolled hfound] at hnext
        exact ⟨session, hsame ▸ hfind, hnext⟩
      · exact ⟨found, (find?_settle_of_ne _ _ hsame).symm.trans hfound, hnext⟩

end Settles

end Simulator

end TrustedModule
