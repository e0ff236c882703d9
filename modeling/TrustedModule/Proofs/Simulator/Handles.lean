import TrustedModule.Proofs.Simulator.Evolution
import TrustedModule.Proofs.Simulator.History

/-!
# Handles

The simulator gives out the handles of sessions and of keys in order, from two counters that lie
above every handle in use. So a session that was closed or flushed is gone for good, as long as the
counter does not start over: no later session has its handle, and nothing can be done with it. Keys
are numbered from far below the storage root key, whose handle their counter reaches only after
0x3F000000 of them.
-/

set_option autoImplicit false

namespace TrustedModule

namespace Simulator

/-! ## Sessions -/

/-- The handles of open sessions were given out. -/
structure SessionHandles (sim : Simulator) : Prop where
  first_le : 0x02000000 ≤ sim.nextSession
  bounds : ∀ handle session, sim.sessions.find? handle = some session →
    0x02000000 ≤ handle ∧ handle < sim.nextSession

theorem sessionHandles_new (maxSessions : Nat) : SessionHandles { maxSessions } :=
  ⟨UInt32.le_refl _, nofun⟩

/-- The next handle is not in use. -/
theorem SessionHandles.find?_nextSession {sim : Simulator} (h : SessionHandles sim) :
    sim.sessions.find? sim.nextSession = none := by
  cases hfind : sim.sessions.find? sim.nextSession with
  | none => rfl
  | some session => exact absurd (h.bounds _ _ hfind).2 (UInt32.lt_irrefl _)

/-- The handle was given out to a session that is no longer there. -/
structure Gone (sim : Simulator) (handle : Handle) : Prop where
  closed : sim.sessions.find? handle = none
  issued : handle < sim.nextSession

section Step

variable {action : Action} {sim next : Simulator}

/-- A session that is open after an action was open before it, or has the next handle, which is
behind the counter then. -/
theorem act_session_cases (hact : act action sim = some next)
    (hwrap : sim.nextSession ≤ next.nextSession) {handle : Handle} {session : SimulatorSession}
    (hfind : next.sessions.find? handle = some session) :
    (∃ before, sim.sessions.find? handle = some before) ∨
      handle = sim.nextSession ∧ sim.nextSession < next.nextSession := by
  rcases act_cases hact with hquiet | ⟨_, _, request, _, middle, haccepted, heffect, rfl⟩
  · exact .inl ⟨session, hquiet.sessions ▸ hfind⟩
  · rcases heffect.session_cases hfind with hbefore | ⟨hopens, hhandle⟩
    · exact .inl hbefore
    · have hcount := act_nextSession hact
      rw [Event.weight_of_accepted? haccepted, hopens] at hcount
      have hone : UInt32.ofNat 1 = 1 := rfl
      exact .inr ⟨hhandle, by grind⟩

theorem SessionHandles.act (h : SessionHandles sim) (hact : act action sim = some next)
    (hwrap : sim.nextSession ≤ next.nextSession) : SessionHandles next := by
  refine ⟨UInt32.le_trans h.first_le hwrap, ?_⟩
  intro handle session hfind
  rcases act_session_cases hact hwrap hfind with ⟨before, hbefore⟩ | ⟨rfl, hlt⟩
  · obtain ⟨hlow, hhigh⟩ := h.bounds handle before hbefore
    exact ⟨hlow, UInt32.lt_of_lt_of_le hhigh hwrap⟩
  · exact ⟨h.first_le, hlt⟩

theorem Gone.act {handle : Handle} (h : Gone sim handle) (hact : act action sim = some next)
    (hwrap : sim.nextSession ≤ next.nextSession) : Gone next handle := by
  refine ⟨?_, UInt32.lt_of_lt_of_le h.issued hwrap⟩
  cases hfind : next.sessions.find? handle with
  | none => rfl
  | some session =>
    rcases act_session_cases hact hwrap hfind with ⟨before, hbefore⟩ | ⟨rfl, _⟩
    · rw [h.closed] at hbefore
      cases hbefore
    · exact absurd h.issued (UInt32.lt_irrefl _)

end Step

theorem History.sessionHandles {start sim : Simulator} {events : List Event}
    (h : History start events sim) (hstart : SessionHandles start)
    (hwrap : ∀ event ∈ events, event.before.nextSession ≤ event.after.nextSession) :
    SessionHandles sim := by
  induction h with
  | nil => exact hstart
  | cons _ hact ih =>
    obtain ⟨hlast, hwrap⟩ := List.forall_mem_cons.mp hwrap
    exact (ih hwrap).act hact hlast

end Simulator

/-! ## Removed sessions -/

/-- The request flushes the session under the handle, or has a block that closes it. -/
def Request.Removes (handle : Handle) : Request → Prop
  | flushSpecific target resource => resource = Resource.auth ∧ target = handle
  | authorized _ _ _ blocks =>
    ∃ block ∈ blocks, block.authHandle = handle ∧ block.continueAuthSession = false
  | _ => False

/-- A block of the request names the session under the handle. -/
def Request.Names (handle : Handle) : Request → Prop
  | authorized _ _ _ blocks => ∃ block ∈ blocks, block.authHandle = handle
  | _ => False

namespace Simulator

theorem Effect.removed {request : Request} {sim next : Simulator} {body : Bytes} {handle : Handle}
    (h : Effect request sim body next) (hremoves : request.Removes handle) :
    (∃ session, sim.sessions.find? handle = some session) ∧
      next.sessions.find? handle = none := by
  cases h with
  | oiap | osap | readRegister => cases hremoves
  | @closeSession _ _ session hfind =>
    obtain ⟨_, rfl⟩ := hremoves
    exact ⟨⟨session, hfind⟩, HandleTable.find?_erase_self ..⟩
  | unloadKey => exact absurd hremoves.1 (by decide)
  | @authorized _ _ _ _ _ _ blocks _ _ _ hsettles =>
    obtain ⟨block, hmem, rfl, hcloses⟩ := hremoves
    obtain ⟨i, hblock⟩ := List.mem_iff_getElem?.mp hmem
    -- a block that closes its session is the last one of it
    have hlast : ∀ j other, i < j → blocks[j]? = some other →
        other.authHandle ≠ block.authHandle := by
      intro j other hlt hother hsame
      have hkeeps := hsettles.keeps_of_later hlt hblock hother hsame
      rw [hcloses] at hkeeps
      cases hkeeps
    obtain ⟨session, hfind, hnext⟩ := hsettles.find?_of_last hblock hlast
    rw [sessions_performed] at hfind
    rw [hcloses] at hnext
    exact ⟨⟨session, hfind⟩, hnext⟩

/-- A session that was removed is gone, whatever was done since. -/
theorem History.gone {start sim : Simulator} {events : List Event} {handle : Handle}
    (h : History start events sim) (hstart : SessionHandles start)
    (hwrap : ∀ event ∈ events, event.before.nextSession ≤ event.after.nextSession)
    (hremoved : ∃ event ∈ events, ∃ request, event.accepted? = some request ∧
      request.Removes handle) : Gone sim handle := by
  induction h with
  | nil =>
    obtain ⟨_, hmem, _⟩ := hremoved
    cases hmem
  | cons hpast hact ih =>
    obtain ⟨hlast, hrest⟩ := List.forall_mem_cons.mp hwrap
    obtain ⟨event, hmem, removal, hremoval, hremoves⟩ := hremoved
    rcases List.mem_cons.mp hmem with rfl | hmem
    · rcases act_cases hact with hquiet | ⟨_, _, request, _, _, haccepted, heffect, rfl⟩
      · cases hquiet.accepted.symm.trans hremoval
      · cases haccepted.symm.trans hremoval
        obtain ⟨⟨session, hfind⟩, hclosed⟩ := heffect.removed hremoves
        obtain ⟨_, hissued⟩ := (hpast.sessionHandles hstart hrest).bounds handle session hfind
        exact ⟨hclosed, UInt32.lt_of_lt_of_le hissued hlast⟩
    · exact (ih hrest ⟨event, hmem, removal, hremoval, hremoves⟩).act hact hlast

/-! ## Handles of removed sessions -/

/-- The device answers the command with the return code, and keeps its sessions and keys. -/
def Refuses (sim : Simulator) (command : Bytes) (code : ReturnCode) : Prop :=
  ∃ next, Device.write command sim = some (.ok command.length, next) ∧
    next.returnCode? = some code.value ∧ next.sessions = sim.sessions ∧ next.keys = sim.keys

section Refusing

variable {sim : Simulator} {command : Bytes} {header : CommandHeader} {code : ReturnCode}

theorem refuses_of_execute {tag : UInt16} {next : Simulator}
    (h : sim.execute command = some (answer tag code [], next))
    (hsessions : next.sessions = sim.sessions) (hkeys : next.keys = sim.keys) :
    sim.Refuses command code := by
  refine ⟨{ next with pending := some (answer tag code []) }, ?_, returnCode?_of_pending rfl,
    hsessions, hkeys⟩
  simp only [Device.write, h, Option.map_some]

theorem refuses_of_decode (hheader : Wire.decode CommandHeader command = .ok header)
    (hdecode : Request.decode header.tag header.ordinal (command.drop headerSize) =
      some (.error code)) : sim.Refuses command code := by
  have hexecute : sim.execute command =
      some (answer (Tag.answering header.tag) code [], sim.logged header.ordinal) := by
    rw [execute_of_header hheader, hdecode]
    rfl
  exact refuses_of_execute hexecute rfl rfl

theorem refuses_of_run {request : Request}
    (hheader : Wire.decode CommandHeader command = .ok header)
    (hdecode : Request.decode header.tag header.ordinal (command.drop headerSize) =
      some (.ok request))
    (hrun : (sim.logged header.ordinal).run request =
      some (.error code, sim.logged header.ordinal)) : sim.Refuses command code := by
  have hexecute : sim.execute command =
      some (answer (Tag.answering header.tag) code [], sim.logged header.ordinal) := by
    rw [execute_of_header hheader, hdecode, Option.bind_some]
    dsimp only
    rw [hrun]
    rfl
  exact refuses_of_execute hexecute rfl rfl

end Refusing

section Closed

variable {command : AuthorizedCommand} {keyHandle : Handle} {params : Bytes} {block : CommandAuth}
  {blocks : List CommandAuth} {sim : Simulator}

/-- No command is accepted on a session that is not there. -/
theorem runAuthorized_of_closed (hmem : block ∈ blocks)
    (hclosed : sim.sessions.find? block.authHandle = none) :
    ∃ code, code ≠ .success ∧
      sim.runAuthorized command keyHandle params blocks = some (.error code, sim) := by
  refine runAuthorized_of_failed fun ⟨_, hauthentic⟩ => ?_
  obtain ⟨session, hfind, _⟩ := hauthentic block hmem
  rw [hclosed] at hfind
  cases hfind

theorem runAuthorized_of_first_closed (hkey : sim.hasKey keyHandle = true)
    (hclosed : sim.sessions.find? block.authHandle = none) :
    sim.runAuthorized command keyHandle params (block :: blocks) =
      some (.error .invalidAuthHandle, sim) := by
  unfold runAuthorized checkAuths
  rw [if_pos hkey, hclosed]

end Closed

/-- A handle cannot be flushed twice. -/
theorem runFlush_of_closed {sim : Simulator} {handle : Handle}
    (h : sim.sessions.find? handle = none) :
    sim.runFlush handle Resource.auth = (.error .invalidAuthHandle, sim) := by
  unfold runFlush HandleTable.contains
  rw [if_pos rfl, h]
  rfl

/-- Nothing can be done with the handle of a session any more. -/
structure Dead (sim : Simulator) (handle : Handle) : Prop where
  closed : sim.sessions.find? handle = none
  /-- No handshake gives it out. -/
  notIssued : ∀ command request written next, Device.write command sim = some (written, next) →
    next.returnCode? = some 0 → Request.ofCommand? command = some request → request.opens = 1 →
    next.issued? ≠ some handle
  /-- It cannot be flushed. -/
  flush : ∀ command header rest, Wire.decode CommandHeader command = .ok header →
    header.tag = Tag.request → header.ordinal = Ordinal.flushSpecific →
    command.drop headerSize = bigEndian 4 handle.toNat ++ bigEndian 4 Resource.auth.toNat ++ rest →
    sim.Refuses command .invalidAuthHandle
  /-- A command that names it in any block is refused, as is one that cannot be read. -/
  authorized : ∀ command,
    (∀ request, Request.ofCommand? command = some request → request.Names handle) →
    ∃ code, code ≠ .success ∧ sim.Refuses command code
  /-- The refusal says so, if nothing else is wrong before the handle is looked up. -/
  first : ∀ command header which, Wire.decode CommandHeader command = .ok header →
    header.ordinal = AuthorizedCommand.ordinal which →
    Tag.authCount header.tag = which.authCount →
    4 + which.authCount * CommandAuth.wireLength ≤ (command.drop headerSize).length →
    ∃ keyHandle params block blocks,
      Request.ofCommand? command = some (.authorized which keyHandle params (block :: blocks)) ∧
      (sim.hasKey keyHandle = true → block.authHandle = handle →
        sim.Refuses command .invalidAuthHandle)

namespace Gone

variable {sim : Simulator} {handle : Handle}

theorem not_issued (h : Gone sim handle) {command : Bytes} {request : Request}
    {written : Except String Nat} {next : Simulator}
    (hwrite : Device.write command sim = some (written, next)) (hcode : next.returnCode? = some 0)
    (hrequest : Request.ofCommand? command = some request) (hopens : request.opens = 1) :
    next.issued? ≠ some handle := by
  intro hissued
  rcases write_cases hwrite with ⟨code, hne, hreturn, _⟩ |
    ⟨tag, ordinal, other, body, middle, hother, heffect, _, rfl⟩
  · exact hne (Option.some.inj (hreturn.symm.trans hcode))
  · cases hother.symm.trans hrequest
    have hnext :
        ({ middle with pending := some (answer tag .success body) } : Simulator).issued? =
          some sim.nextSession := issued?_of_pending rfl (heffect.handle_of_opens hopens)
    obtain rfl : sim.nextSession = handle := Option.some.inj (hnext.symm.trans hissued)
    exact absurd h.issued (UInt32.lt_irrefl _)

theorem refuses_flush (h : Gone sim handle) {command rest : Bytes} {header : CommandHeader}
    (hheader : Wire.decode CommandHeader command = .ok header) (htag : header.tag = Tag.request)
    (hordinal : header.ordinal = Ordinal.flushSpecific)
    (hpayload : command.drop headerSize =
      bigEndian 4 handle.toNat ++ bigEndian 4 Resource.auth.toNat ++ rest) :
    sim.Refuses command .invalidAuthHandle := by
  have hdecode : Request.decode header.tag header.ordinal (command.drop headerSize) =
      some (.ok (.flushSpecific handle Resource.auth)) := by
    rw [htag, hordinal, hpayload]
    exact Request.decode_flushSpecific handle Resource.auth rest
  have hclosed : (sim.logged header.ordinal).sessions.find? handle = none := h.closed
  exact refuses_of_run hheader hdecode (congrArg some (runFlush_of_closed hclosed))

theorem refuses_named (h : Gone sim handle) {command : Bytes}
    (hnames : ∀ request, Request.ofCommand? command = some request → request.Names handle) :
    ∃ code, code ≠ .success ∧ sim.Refuses command code := by
  cases hheader : Wire.decode CommandHeader command with
  | error error =>
    have hexecute : sim.execute command = some (answer Tag.response .badParameter [], sim) := by
      unfold execute
      rw [hheader]
    exact ⟨.badParameter, by decide, refuses_of_execute hexecute rfl rfl⟩
  | ok header =>
    rw [Request.ofCommand?_of_header hheader] at hnames
    obtain ⟨decoded, hdecode⟩ :=
      Request.exists_decode header.tag header.ordinal (command.drop headerSize)
    cases decoded with
    | error code =>
      exact ⟨code, Request.decode_ne_success hdecode, refuses_of_decode hheader hdecode⟩
    | ok request =>
      rw [hdecode] at hnames
      have hnamed := hnames request rfl
      cases request with
      | oiap | osap | flushSpecific | pcrRead => cases hnamed
      | authorized which keyHandle params blocks =>
        obtain ⟨block, hmem, rfl⟩ := hnamed
        have hclosed : (sim.logged header.ordinal).sessions.find? block.authHandle = none :=
          h.closed
        obtain ⟨code, hcode, hrun⟩ := runAuthorized_of_closed hmem hclosed
        exact ⟨code, hcode, refuses_of_run hheader hdecode hrun⟩

theorem refuses_first (h : Gone sim handle) {command : Bytes} {header : CommandHeader}
    {which : AuthorizedCommand} (hheader : Wire.decode CommandHeader command = .ok header)
    (hordinal : header.ordinal = which.ordinal)
    (htag : Tag.authCount header.tag = which.authCount)
    (hlength : 4 + which.authCount * CommandAuth.wireLength ≤ (command.drop headerSize).length) :
    ∃ keyHandle params block blocks,
      Request.ofCommand? command = some (.authorized which keyHandle params (block :: blocks)) ∧
      (sim.hasKey keyHandle = true → block.authHandle = handle →
        sim.Refuses command .invalidAuthHandle) := by
  -- whatever the bytes are, they can be read, and there is a first block
  obtain ⟨_, _, _, auths, _, _, _, hauthorized⟩ := Request.decodeAuthorized_of_le hlength
  have hdecode := Request.decode_ordinal which header.tag (command.drop headerSize)
  rw [if_neg (not_not_intro htag), hauthorized, ← hordinal] at hdecode
  cases auths with
  | nil => exact absurd (Request.length_of_decode hdecode) (Nat.ne_of_lt which.authCount_pos)
  | cons block blocks =>
    have hrequest := Request.ofCommand?_of_header hheader
    rw [hdecode] at hrequest
    refine ⟨_, _, block, blocks, hrequest, ?_⟩
    rintro hkey rfl
    have hclosed : (sim.logged header.ordinal).sessions.find? block.authHandle = none := h.closed
    exact refuses_of_run hheader hdecode (runAuthorized_of_first_closed hkey hclosed)

theorem dead (h : Gone sim handle) : Dead sim handle where
  closed := h.closed
  notIssued _ _ _ _ := h.not_issued
  flush _ _ _ := h.refuses_flush
  authorized _ := h.refuses_named
  first _ _ _ := h.refuses_first

end Gone

/-! ## Keys -/

/-- The key is loaded, or was before one of the events. -/
def HadKey (events : List Event) (sim : Simulator) (handle : Handle) : Prop :=
  sim.hasKey handle = true ∨ ∃ event ∈ events, event.before.hasKey handle = true

/-- Of all keys that are or were loaded, each is the storage root key or has a handle that was given
out. -/
structure KeyHandles (events : List Event) (sim : Simulator) : Prop where
  first_le : 0x01000000 ≤ sim.nextKey
  bounds : ∀ handle, HadKey events sim handle →
    handle = Handle.storageRootKey ∨ 0x01000000 ≤ handle ∧ handle < sim.nextKey

theorem keyHandles_new (maxSessions : Nat) : KeyHandles [] { maxSessions } := by
  refine ⟨UInt32.le_refl _, ?_⟩
  rintro handle (hkey | ⟨_, hmem, _⟩)
  · exact .inl (List.mem_singleton.mp (List.contains_iff_mem.mp hkey))
  · cases hmem

section Step

variable {action : Action} {sim next : Simulator} {events : List Event}

theorem act_key_cases (hact : act action sim = some next) (hwrap : sim.nextKey ≤ next.nextKey)
    {handle : Handle} (hkey : next.hasKey handle = true) :
    sim.hasKey handle = true ∨ handle = sim.nextKey ∧ sim.nextKey < next.nextKey := by
  rcases act_cases hact with hquiet | ⟨_, _, request, _, middle, haccepted, heffect, rfl⟩
  · unfold hasKey at hkey ⊢
    rw [hquiet.keys] at hkey
    exact .inl hkey
  · rcases heffect.key_cases hkey with hbefore | ⟨hloads, hhandle⟩
    · exact .inl hbefore
    · have hcount := act_nextKey hact
      rw [Event.weight_of_accepted? haccepted, hloads] at hcount
      have hone : UInt32.ofNat 1 = 1 := rfl
      exact .inr ⟨hhandle, by grind⟩

theorem KeyHandles.act (h : KeyHandles events sim) (hact : act action sim = some next)
    (hwrap : sim.nextKey ≤ next.nextKey) : KeyHandles (⟨sim, action, next⟩ :: events) next := by
  refine ⟨UInt32.le_trans h.first_le hwrap, ?_⟩
  have hwiden : ∀ handle, HadKey events sim handle →
      handle = Handle.storageRootKey ∨ 0x01000000 ≤ handle ∧ handle < next.nextKey := by
    intro handle hhad
    refine (h.bounds handle hhad).imp_right ?_
    rintro ⟨hlow, hhigh⟩
    exact ⟨hlow, UInt32.lt_of_lt_of_le hhigh hwrap⟩
  rintro handle (hkey | ⟨event, hmem, hkey⟩)
  · rcases act_key_cases hact hwrap hkey with hbefore | ⟨rfl, hlt⟩
    · exact hwiden handle (.inl hbefore)
    · exact .inr ⟨h.first_le, hlt⟩
  · rcases List.mem_cons.mp hmem with rfl | hmem
    · exact hwiden handle (.inl hkey)
    · exact hwiden handle (.inr ⟨event, hmem, hkey⟩)

end Step

theorem History.keyHandles {start sim : Simulator} {events : List Event}
    (h : History start events sim) (hstart : KeyHandles [] start)
    (hwrap : ∀ event ∈ events, event.before.nextKey ≤ event.after.nextKey) :
    KeyHandles events sim := by
  induction h with
  | nil => exact hstart
  | cons _ hact ih =>
    obtain ⟨hlast, hrest⟩ := List.forall_mem_cons.mp hwrap
    exact (ih hrest).act hact hlast

/-- The counter of the keys is as far as there were keys loaded. -/
theorem History.nextKey_eq {start sim : Simulator} {events : List Event}
    (h : History start events sim)
    (hroom : start.nextKey.toNat + tally Request.loads events < 0x100000000) :
    sim.nextKey.toNat = start.nextKey.toNat + tally Request.loads events := by
  induction h with
  | nil => rfl
  | cons _ hact ih =>
    rw [tally_cons] at hroom
    rw [act_nextKey hact, UInt32.toNat_add, UInt32.toNat_ofNat', ih (by omega), tally_cons]
    omega

/-- As long as few keys are loaded, their counter does not start over. -/
theorem History.nextKey_le {start sim : Simulator} {events : List Event}
    (h : History start events sim)
    (hroom : start.nextKey.toNat + tally Request.loads events < 0x100000000) :
    ∀ event ∈ events, event.before.nextKey ≤ event.after.nextKey := by
  induction h with
  | nil => exact nofun
  | cons hpast hact ih =>
    have hafter := (History.cons hpast hact).nextKey_eq hroom
    rw [tally_cons] at hroom hafter
    have hbefore := hpast.nextKey_eq (by omega)
    refine List.forall_mem_cons.mpr ⟨?_, ih (by omega)⟩
    dsimp only
    rw [UInt32.le_iff_toNat_le]
    omega

/-- A key gets a handle under which no key was loaded before. -/
theorem History.loads_new {start sim : Simulator} {later earlier : List Event} {event : Event}
    {request : Request} (h : History start (later ++ event :: earlier) sim)
    (hstart : KeyHandles [] start) (hfirst : start.nextKey = 0x01000000)
    (hfew : tally Request.loads (later ++ event :: earlier) < 0x3F000000)
    (hrequest : event.accepted? = some request) (hloads : request.loads = 1) :
    ∃ handle, event.after.issued? = some handle ∧
      ∀ before ∈ event :: earlier, before.before.hasKey handle = false := by
  obtain ⟨before, action, after⟩ := event
  obtain ⟨hpast, hact⟩ := h.split
  dsimp only at hpast hact
  rw [tally_append, tally_cons] at hfew
  have hbase : start.nextKey.toNat = 0x01000000 := by rw [hfirst]; rfl
  have hcount := hpast.nextKey_eq (by omega)
  have hkeys := hpast.keyHandles hstart (hpast.nextKey_le (by omega))
  have hnever : ¬ HadKey earlier before before.nextKey := by
    intro hhad
    rcases hkeys.bounds _ hhad with hroot | ⟨_, hlt⟩
    · -- the counter has not come as far as the handle of the storage root key
      have hroot : before.nextKey.toNat = 0x40000000 := congrArg UInt32.toNat hroot
      omega
    · exact UInt32.lt_irrefl _ hlt
  refine ⟨before.nextKey, ?_, ?_⟩
  · rcases act_cases hact with hquiet | ⟨_, _, other, _, _, haccepted, heffect, rfl⟩
    · cases hquiet.accepted.symm.trans hrequest
    · cases haccepted.symm.trans hrequest
      exact issued?_of_pending rfl (heffect.handle_of_loads hloads)
  · intro other hmem
    rw [← Bool.not_eq_true]
    intro hkey
    rcases List.mem_cons.mp hmem with rfl | hmem
    · exact hnever (.inl hkey)
    · exact hnever (.inr ⟨other, hmem, hkey⟩)

/-! ## Whole runs -/

/-- A session that was flushed or closed stays dead, as long as the counter of sessions does not
start over, and no key is given a handle that was in use before, as long as few keys are loaded. -/
theorem handles_stay_dead {sim : Simulator} {events : List Event} (h : History {} events sim) :
    ((∀ event ∈ events, event.before.nextSession ≤ event.after.nextSession) →
      ∀ handle, (∃ event ∈ events, ∃ request, event.accepted? = some request ∧
        request.Removes handle) → Dead sim handle) ∧
    (tally Request.loads events < 0x3F000000 →
      ∀ later event earlier request, events = later ++ event :: earlier →
        event.accepted? = some request → request.loads = 1 →
        ∃ handle, event.after.issued? = some handle ∧
          ∀ before ∈ event :: earlier, before.before.hasKey handle = false) := by
  constructor
  · intro hwrap handle hremoved
    exact (h.gone (sessionHandles_new 3) hwrap hremoved).dead
  · rintro hfew later event earlier request rfl hrequest hloads
    exact h.loads_new (keyHandles_new 3) rfl hfew hrequest hloads

/-- The parameters of a LoadKey2 that loads an empty key. -/
def keyParams : Bytes := (Wire.encode (default : Key)).toOption.getD []

/-- What authorizes that LoadKey2 under the session of `afterOiap`, and closes the session. -/
def loadKeyBlock : CommandAuth :=
  { authHandle := 0x02000000
    nonceOdd := .zero 20
    continueAuthSession := false
    auth := authDigest wellKnownSecret.bytes (commandDigest Ordinal.loadKey2 keyParams)
      (nonceAfter 0) (.zero 20) false }

def loadKeyRequest : Bytes :=
  CommandHeader.message AuthorizedCommand.loadKey2.tag AuthorizedCommand.loadKey2.ordinal
    (AuthorizedCommand.body Handle.storageRootKey keyParams [loadKeyBlock])

theorem accepted?_oiap : Event.accepted?
    ⟨{}, .write (CommandHeader.message Tag.request Ordinal.oiap []), afterOiap⟩ = some .oiap := by
  have hcode : afterOiap.returnCode? = some 0 := returnCode?_of_pending rfl
  rw [Event.accepted?_of_returnCode? hcode, Request.ofCommand?_message]
  rfl

theorem write_loadKey : ∃ written next,
    Device.write loadKeyRequest afterOiap = some (written, next) ∧ next.returnCode? = some 0 ∧
      next.maxSessions = afterOiap.maxSessions ∧
      Event.Advances ⟨afterOiap, .write loadKeyRequest, next⟩ := by
  have hrun : (Device.write loadKeyRequest afterOiap).any (fun (_, next) => decide
      (next.returnCode? = some 0 ∧ next.maxSessions = afterOiap.maxSessions ∧
        afterOiap.nextSession ≤ next.nextSession ∧ afterOiap.nextKey ≤ next.nextKey ∧
        afterOiap.nonceCounter ≤ next.nonceCounter)) = true := by
    decide +kernel
  obtain ⟨⟨written, next⟩, hwrite, hnext⟩ := (Option.any_eq_true _ _).mp hrun
  obtain ⟨hcode, hsize, hsessions, hkeys, hnonces⟩ := of_decide_eq_true hnext
  exact ⟨written, next, hwrite, hcode, hsize, hsessions, hkeys, hnonces⟩

theorem ofCommand?_loadKey : Request.ofCommand? loadKeyRequest =
    some (.authorized .loadKey2 Handle.storageRootKey keyParams [loadKeyBlock]) := by
  rw [loadKeyRequest, Request.ofCommand?_message, Request.decode_body rfl]
  rfl

/-- A session is opened, and a key is loaded with the one block that it ever authorizes. -/
theorem handles_stay_dead_loadKey : ∃ (sim : Simulator) (events : List Event) (handle : Handle),
    History {} events sim ∧ tally Request.loads events = 1 ∧ Dead sim 0x02000000 ∧
      sim.issued? = some handle ∧ afterOiap.hasKey handle = false := by
  obtain ⟨_, next, hwrite, hcode, _, hadvances⟩ := write_loadKey
  have haccepted : Event.accepted? ⟨afterOiap, .write loadKeyRequest, next⟩ = _ :=
    (Event.accepted?_of_returnCode? hcode).trans ofCommand?_loadKey
  have hhistory := History.cons (.cons .nil (act_of_write write_oiap)) (act_of_write hwrite)
  have htally : tally Request.loads [⟨afterOiap, .write loadKeyRequest, next⟩,
      ⟨{}, .write (CommandHeader.message Tag.request Ordinal.oiap []), afterOiap⟩] = 1 := by
    rw [tally_cons, tally_cons, Event.weight_of_accepted? accepted?_oiap,
      Event.weight_of_accepted? haccepted]
    rfl
  obtain ⟨hdead, hnew⟩ := handles_stay_dead hhistory
  obtain ⟨handle, hissued, hbefore⟩ :=
    hnew (by rw [htally]; decide) [] _ _ _ rfl haccepted rfl
  refine ⟨next, _, handle, hhistory, htally, hdead ?_ _ ?_, hissued, ?_⟩
  · exact List.forall_mem_cons.mpr
      ⟨hadvances.sessions, List.forall_mem_singleton.mpr (by decide)⟩
  · exact ⟨_, List.mem_cons_self .., _, haccepted, loadKeyBlock, List.mem_singleton_self _, rfl,
      rfl⟩
  · exact hbefore _ (List.mem_cons_self ..)

end Simulator

end TrustedModule
