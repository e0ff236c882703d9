import Mathlib.Data.List.Nodup
import Mathlib.Logic.Function.Basic
import TrustedModule.Proofs.Authorization.Binding
import TrustedModule.Proofs.Exchange.Agreement
import TrustedModule.Proofs.Exchange.Calls
import TrustedModule.Proofs.Exchange.Opening

/-!
# Sessions in sync

The caller and the device keep their ends of a session in step, whatever the order in which
exchanges of different sessions go on. An exchange is taken apart into its steps, so that the steps
of other exchanges may come between them: each session is authorized for a call, with the wish to
keep the session open or to close it, the handler of the call runs over the blocks of its sessions,
and each session checks its response. What was wished for is what becomes of both ends.
-/

set_option autoImplicit false

namespace TrustedModule

namespace Session

/-- Neither end goes on with the session. -/
def Closed (sim : Simulator) (session : Session) : Prop :=
  session.terminated = true ∧ sim.sessions.find? session.handle = none

/-- What an exchange that asked to keep a session, or to close it, makes of the two ends. -/
def EndsAs (keep : Bool) (sim : Simulator) (session : Session) : Prop :=
  if keep then session.InSync sim else session.Closed sim

/-- Only the device's entry for the session matters. -/
theorem EndsAs.frame {keep : Bool} {before after : Simulator} {session : Session}
    (h : session.EndsAs keep before)
    (hsame : after.sessions.find? session.handle = before.sessions.find? session.handle) :
    session.EndsAs keep after := by
  cases keep with
  | true => exact ⟨h.1, hsame.trans h.2⟩
  | false => exact ⟨h.1, hsame.trans h.2⟩

/-- Checks a response over the output list of a reply. -/
def checkReply (ordinal : UInt32) (outParams : Except Error (List Field)) (response : ResponseAuth)
    (session : Session) : Except Error Unit × Session :=
  match outParams with
  | .error error => (.error error, session)
  | .ok fields => session.checkResponse ordinal fields response

theorem handle_checkReply (ordinal : UInt32) (outParams : Except Error (List Field))
    (response : ResponseAuth) (session : Session) :
    (session.checkReply ordinal outParams response).2.handle = session.handle := by
  unfold checkReply
  split
  · rfl
  · unfold checkResponse
    split
    · rfl
    · dsimp only
      split <;> rfl

theorem handle_authorize (ordinal : UInt32) (params : List Field) (nonceOdd : Digest)
    (session : Session) :
    (session.authorize ordinal params nonceOdd).2.handle = session.handle := by
  unfold authorize
  split <;> rfl

/-- A session that is in sync agrees with what the device did with its block: it accepts the
response, and is left in sync or closed as its block asked for. -/
theorem checkReply_of_settled {before after : Simulator} {session : Session} {block : CommandAuth}
    {response : ResponseAuth} {ordinal : UInt32} {fields : List Field} {params : Bytes}
    (hsync : session.InSync before) (hhandle : block.authHandle = session.handle)
    (hnonce : block.nonceOdd = session.nonceOdd)
    (hfields : Field.encode fields = .ok params)
    (hsettled : Simulator.Settled (responseDigest 0 ordinal params) before after block response) :
    session.checkReply ordinal (.ok fields) response = (.ok (), session.roll response) ∧
      (session.roll response).EndsAs block.continueAuthSession after := by
  obtain ⟨halive, hfind⟩ := hsync
  obtain ⟨held, hheld, hcontinue, hauth, hafter⟩ := hsettled
  rw [hhandle, hfind] at hheld
  cases hheld
  constructor
  · rw [checkReply, checkResponse_of_encode hfields, if_pos]
    rw [hauth, hcontinue, hnonce]
  · rw [hhandle] at hafter
    unfold SimulatorSession.rolled at hafter
    cases hkeep : block.continueAuthSession with
    | true =>
      rw [hkeep, if_pos rfl] at hafter
      refine ⟨?_, hafter⟩
      simp only [roll, halive, hcontinue, hkeep]
      rfl
    | false =>
      rw [hkeep, if_neg nofun] at hafter
      refine ⟨?_, hafter⟩
      simp only [roll, halive, hcontinue, hkeep]
      rfl

end Session

/-- A client with 4 GiB has room for whatever the simulator answers. -/
theorem Call.fits_of_le {call : Call} {blocks : List CommandAuth} {sim : Simulator} {limit : Nat}
    (h : 0x100000000 ≤ limit) : call.Fits blocks sim limit := by
  intro request answer next hrequest hexecute
  obtain ⟨code, body, rfl, _, hsize⟩ := Simulator.execute_framed hrequest hexecute
  rw [Simulator.length_answer]
  omega

/-! ## Steps of exchanges -/

/-- How far a session is in an exchange, and whether this exchange asked to keep it. -/
inductive Phase where
  /-- In no exchange. The last one that was checked asked to keep the session, or to close it. -/
  | idle (keep : Bool)
  | authorized (call : Call) (keep : Bool) (block : CommandAuth)
  | answered (keep : Bool) (ordinal : UInt32) (outParams : Except Error (List Field))
      (response : ResponseAuth)

namespace Phase

/-- What holds of the two ends of a session in each phase. A response that is waiting will be
accepted, and will leave the session in sync or closed, as its exchange asked for. -/
def Coherent (sim : Simulator) (session : Session) : Phase → Prop
  | idle keep => session.EndsAs keep sim
  | authorized _ keep block =>
    session.InSync sim ∧ block.authHandle = session.handle ∧ block.nonceOdd = session.nonceOdd ∧
      block.continueAuthSession = keep
  | answered keep ordinal outParams response =>
    ∃ rolled, session.checkReply ordinal outParams response = (.ok (), rolled) ∧
      rolled.EndsAs keep sim

/-- The handler of the call has run: the session waits with its response, if there is one for it. -/
def answer (ordinal : UInt32) (outParams : Except Error (List Field))
    (response? : Option ResponseAuth) : Phase → Phase
  | authorized _ keep _ => response?.elim (idle true) (answered keep ordinal outParams)
  | phase => phase

/-- Only the device's entry for the session matters. -/
theorem Coherent.frame {before after : Simulator} {session : Session} {phase : Phase}
    (h : phase.Coherent before session)
    (hsame : after.sessions.find? session.handle = before.sessions.find? session.handle) :
    phase.Coherent after session := by
  cases phase with
  | idle keep => exact Session.EndsAs.frame h hsame
  | authorized call keep block =>
    obtain ⟨⟨halive, hfind⟩, hblock⟩ := h
    exact ⟨⟨halive, hsame.trans hfind⟩, hblock⟩
  | answered keep ordinal outParams response =>
    obtain ⟨rolled, hcheck, hrolled⟩ := h
    have hhandle := session.handle_checkReply ordinal outParams response
    rw [hcheck] at hhandle
    refine ⟨rolled, hcheck, hrolled.frame ?_⟩
    rw [hhandle]
    exact hsame

/-- A session in no exchange either gets a block for a call, or stays as it is. -/
theorem Coherent.authorize {sim : Simulator} {session after : Session} {call : Call}
    {kept : Bool} {nonceOdd : Digest} {result : Except Error CommandAuth}
    (h : (idle kept).Coherent sim session)
    (hauthorize : session.authorize call.command.ordinal call.params nonceOdd = (result, after)) :
    (∃ error, result = .error error) ∧ (idle kept).Coherent sim after ∨
      ∃ block, result = .ok block ∧
        (authorized call session.continueAuthSession block).Coherent sim after := by
  unfold Session.authorize at hauthorize
  split at hauthorize
  · cases hauthorize
    exact .inl ⟨⟨_, rfl⟩, h⟩
  · rename_i halive
    obtain ⟨rfl, rfl⟩ := Prod.mk.inj hauthorize
    cases kept with
    | false => exact absurd h.1 halive
    | true =>
      cases hdigest : inParamDigest call.command.ordinal call.params with
      | error error => exact .inl ⟨⟨error, rfl⟩, h⟩
      | ok digest => exact .inr ⟨_, rfl, h, rfl, rfl, rfl⟩

end Phase

/-- A device, and any number of sessions of a caller with it. -/
structure Desk (ι : Type) where
  device : Simulator
  sessions : ι → Session
  phase : ι → Phase := fun _ => .idle true

namespace Desk

variable {ι : Type}

/-- Both ends of the session are in the states that its phase asks for. -/
def Coherent (desk : Desk ι) (slot : ι) : Prop :=
  (desk.phase slot).Coherent desk.device (desk.sessions slot)

/-- The sessions of a caller are different ones on the device, and each is coherent. -/
structure Invariant (desk : Desk ι) : Prop where
  distinct : Function.Injective fun slot => (desk.sessions slot).handle
  coherent : ∀ slot, desk.Coherent slot

theorem Invariant.of_phase {desk : Desk ι} (h : desk.Invariant) {slot : ι} {phase : Phase}
    (hphase : desk.phase slot = phase) : phase.Coherent desk.device (desk.sessions slot) :=
  hphase ▸ h.coherent slot

variable [DecidableEq ι]

/-- Authorizes the parameters of a call, and asks the device to keep the session open or not. -/
def authorize (slot : ι) (call : Call) (nonceOdd : Digest) (keep : Bool) (desk : Desk ι) : Desk ι :=
  let (block, session) := ((desk.sessions slot).setContinue keep).authorize call.command.ordinal
    call.params nonceOdd
  { desk with
    sessions := Function.update desk.sessions slot session
    phase := match block with
      | .error _ => desk.phase
      | .ok block => Function.update desk.phase slot (.authorized call keep block) }

/-- Gives the call up before its handler runs. -/
def abandon (slot : ι) (desk : Desk ι) : Desk ι :=
  { desk with phase := Function.update desk.phase slot (.idle true) }

/-- Takes what the handler returned: nothing to check, or a response for each of the sessions. -/
def deliver (call : Call) (slots : List ι) (result : Except Error Reply) (device : Simulator)
    (desk : Desk ι) : Desk ι :=
  { desk with
    device
    phase := fun slot =>
      if slot ∈ slots then
        match result with
        | .error _ => .idle true
        | .ok reply =>
          (desk.phase slot).answer call.command.ordinal reply.outParams
            ((slots.zip reply.responses).lookup slot)
      else desk.phase slot }

/-- Checks the response that the session is waiting with. -/
def check (slot : ι) (keep : Bool) (ordinal : UInt32) (outParams : Except Error (List Field))
    (response : ResponseAuth) (desk : Desk ι) : Desk ι :=
  { desk with
    sessions := Function.update desk.sessions slot
      ((desk.sessions slot).checkReply ordinal outParams response).2
    phase := Function.update desk.phase slot (.idle keep) }

/-- One step of one exchange. -/
inductive Step : Desk ι → Desk ι → Prop
  | authorize {desk : Desk ι} {slot : ι} {kept : Bool} (call : Call) (nonceOdd : Digest)
      (keep : Bool) (hphase : desk.phase slot = .idle kept) :
      Step desk (desk.authorize slot call nonceOdd keep)
  | abandon {desk : Desk ι} {slot : ι} {call : Call} {keep : Bool} {block : CommandAuth}
      (hphase : desk.phase slot = .authorized call keep block) : Step desk (desk.abandon slot)
  /-- The handler runs over the blocks of different sessions, on a client with enough room. -/
  | send {desk : Desk ι} {call : Call} {slots : List ι} {blocks : List CommandAuth} {limit : Nat}
      {result : Except Error Reply} {after : Client Simulator} (hslots : slots.Nodup)
      (hphases : List.Forall₂
        (fun slot block => ∃ keep, desk.phase slot = .authorized call keep block) slots blocks)
      (hfits : call.Fits blocks desk.device limit)
      (hsend : call.send blocks ⟨desk.device, limit⟩ = some (result, after)) :
      Step desk (desk.deliver call slots result after.device)
  | check {desk : Desk ι} {slot : ι} {keep : Bool} {ordinal : UInt32}
      {outParams : Except Error (List Field)} {response : ResponseAuth}
      (hphase : desk.phase slot = .answered keep ordinal outParams response) :
      Step desk (desk.check slot keep ordinal outParams response)

/-- Any interleaving of steps. -/
abbrev Run : Desk ι → Desk ι → Prop := Relation.ReflTransGen Step

/-- A step that touches one session, and not the device. -/
theorem Invariant.update {desk : Desk ι} (h : desk.Invariant) {slot : ι} {session : Session}
    {phase : Phase} (hhandle : session.handle = (desk.sessions slot).handle)
    (hcoherent : phase.Coherent desk.device session) :
    Invariant { desk with
      sessions := Function.update desk.sessions slot session
      phase := Function.update desk.phase slot phase } := by
  have hhandles : (fun other => (Function.update desk.sessions slot session other).handle) =
      fun other => (desk.sessions other).handle := by
    funext other
    by_cases heq : other = slot
    · subst heq
      rw [Function.update_self, hhandle]
    · rw [Function.update_of_ne heq]
  constructor
  · rw [hhandles]
    exact h.distinct
  · intro other
    unfold Coherent
    by_cases heq : other = slot
    · subst heq
      simp only [Function.update_self]
      exact hcoherent
    · simp only [Function.update_of_ne heq]
      exact h.coherent other

section Steps

variable {desk : Desk ι} {slot : ι} {keep : Bool}

theorem Invariant.authorize (h : desk.Invariant) {kept : Bool}
    (hphase : desk.phase slot = .idle kept) (call : Call) (nonceOdd : Digest) (keep : Bool) :
    (desk.authorize slot call nonceOdd keep).Invariant := by
  have hidle : (Phase.idle kept).Coherent desk.device ((desk.sessions slot).setContinue keep) := by
    have hkept := h.of_phase hphase
    cases kept <;> exact hkept
  unfold Desk.authorize
  cases hauthorize : ((desk.sessions slot).setContinue keep).authorize call.command.ordinal
      call.params nonceOdd with
  | mk result session =>
    have hhandle := Session.handle_authorize call.command.ordinal call.params nonceOdd
      ((desk.sessions slot).setContinue keep)
    rw [hauthorize] at hhandle
    obtain ⟨⟨error, rfl⟩, hidle⟩ | ⟨block, rfl, hblock⟩ := hidle.authorize hauthorize
    · have hupdate := @Invariant.update _ _ _ h slot session (.idle kept) hhandle hidle
      rwa [← hphase, Function.update_eq_self] at hupdate
    · exact h.update hhandle hblock

theorem Invariant.abandon (h : desk.Invariant) {call : Call} {block : CommandAuth}
    (hphase : desk.phase slot = .authorized call keep block) : (desk.abandon slot).Invariant := by
  obtain ⟨hsync, _⟩ := h.of_phase hphase
  have hupdate := @Invariant.update _ _ _ h slot (desk.sessions slot) (.idle true) rfl hsync
  rwa [Function.update_eq_self] at hupdate

theorem Invariant.check (h : desk.Invariant) {ordinal : UInt32}
    {outParams : Except Error (List Field)} {response : ResponseAuth}
    (hphase : desk.phase slot = .answered keep ordinal outParams response) :
    (desk.check slot keep ordinal outParams response).Invariant := by
  obtain ⟨rolled, hcheck, hrolled⟩ := h.of_phase hphase
  refine h.update (Session.handle_checkReply ..) ?_
  rw [hcheck]
  exact hrolled

end Steps

/-- The response that a session gets stands where its block stood. -/
theorem lookup_zip {α β : Type} {R : ι → α → Prop} {S : α → β → Prop} {slots : List ι}
    {blocks : List α} {responses : List β} (h : List.Forall₂ R slots blocks)
    (h' : List.Forall₂ S blocks responses) {slot : ι} (hmem : slot ∈ slots) :
    ∃ block response, (slots.zip responses).lookup slot = some response ∧ R slot block ∧
      S block response := by
  induction h generalizing responses with
  | nil => cases hmem
  | @cons head block slots blocks hhead _ ih =>
    cases h' with
    | @cons _ response _ responses hresponse hrest =>
      rw [List.zip_cons_cons, List.lookup_cons]
      by_cases heq : slot = head
      · subst heq
        exact ⟨block, response, by rw [beq_self_eq_true], hhead, hresponse⟩
      · obtain ⟨other, answer, hlookup, hother⟩ :=
          ih hrest ((List.mem_cons.mp hmem).resolve_left heq)
        exact ⟨other, answer, by rw [beq_eq_false_iff_ne.mpr heq]; exact hlookup, hother⟩

theorem Invariant.send {desk : Desk ι} (h : desk.Invariant) {call : Call} {slots : List ι}
    {blocks : List CommandAuth} {limit : Nat} {result : Except Error Reply}
    {after : Client Simulator} (hslots : slots.Nodup)
    (hphases : List.Forall₂
      (fun slot block => ∃ keep, desk.phase slot = .authorized call keep block) slots blocks)
    (hfits : call.Fits blocks desk.device limit)
    (hsend : call.send blocks ⟨desk.device, limit⟩ = some (result, after)) :
    (desk.deliver call slots result after.device).Invariant := by
  have hauthorized : List.Forall₂ (fun slot block => ∃ keep,
      desk.phase slot = .authorized call keep block ∧
        (Phase.authorized call keep block).Coherent desk.device (desk.sessions slot))
      slots blocks := by
    refine hphases.imp ?_
    rintro slot block ⟨keep, hphase⟩
    exact ⟨keep, hphase, h.of_phase hphase⟩
  have hhandles : slots.map (fun slot => (desk.sessions slot).handle) =
      blocks.map CommandAuth.authHandle := by
    rw [← List.forall₂_eq_eq_eq, List.forall₂_map_left_iff, List.forall₂_map_right_iff]
    exact hauthorized.imp fun _ _ ⟨_, _, _, hhandle, _⟩ => hhandle.symm
  have hdistinct : (blocks.map CommandAuth.authHandle).Nodup := by
    rw [← hhandles]
    exact List.Nodup.map h.distinct hslots
  refine ⟨h.distinct, ?_⟩
  intro slot
  unfold Coherent deliver
  dsimp only
  obtain ⟨⟨error, rfl⟩, hsame⟩ | ⟨reply, rfl, fields, params, middle, next, hout, hencode, hmiddle,
    hanswer, hnext⟩ := Call.answered hfits hsend
  · -- the device did nothing, and nobody waits for a response
    split
    · rename_i hmem
      obtain ⟨block, _, _, ⟨_, _, ⟨halive, hfind⟩, _⟩, _⟩ :=
        lookup_zip hauthorized (List.forall₂_same.mpr fun block _ => Eq.refl block) hmem
      refine ⟨halive, ?_⟩
      rw [hsame]
      exact hfind
    · exact (h.coherent slot).frame (by rw [hsame])
  · obtain ⟨hsettled, hothers⟩ := Simulator.answerAuths_settled hanswer hdistinct
    split
    · rename_i hmem
      obtain ⟨block, response, hlookup, ⟨keep, hphase, hsync, hhandle, hnonce, hkeep⟩, hsettled⟩ :=
        lookup_zip hauthorized hsettled hmem
      obtain ⟨hcheck, hends⟩ := Session.checkReply_of_settled hsync hhandle hnonce hencode
        (hsettled.congr hmiddle hnext.symm)
      dsimp only
      rw [hphase, hlookup, hout]
      exact ⟨_, hcheck, hkeep ▸ hends⟩
    · rename_i hmem
      refine (h.coherent slot).frame ?_
      rw [hnext, hothers, hmiddle]
      rw [← hhandles, List.mem_map]
      rintro ⟨other, hother, heq⟩
      exact hmem (h.distinct heq ▸ hother)

theorem Step.invariant {desk next : Desk ι} (hstep : Step desk next) (h : desk.Invariant) :
    next.Invariant := by
  cases hstep with
  | authorize call nonceOdd keep hphase => exact h.authorize hphase call nonceOdd keep
  | abandon hphase => exact h.abandon hphase
  | send hslots hphases hfits hsend => exact h.send hslots hphases hfits hsend
  | check hphase => exact h.check hphase

theorem Run.invariant {desk later : Desk ι} (hrun : Run desk later) (h : desk.Invariant) :
    later.Invariant := by
  induction hrun with
  | refl => exact h
  | tail _ hstep ih => exact hstep.invariant ih

/-- Sessions are in sync from the start, and stay so. From every state that a new simulator can be
brought to, a session that is opened with the well-known secret is in sync, under a handle of its
own. And from any device, sessions of different handles that are in sync there go through their
exchanges, in whatever order the steps of these are taken, so that every response is accepted when
it is checked, and then the session is in sync if its exchange asked to keep it, and closed at both
ends if it asked to close it. -/
theorem sessions_stay_in_sync {start : Simulator} {desk later : Desk ι}
    (hstart : start.Reachable)
    (hdistinct : Function.Injective fun slot => (desk.sessions slot).handle)
    (hidle : ∀ slot, desk.phase slot = .idle true)
    (hsync : ∀ slot, (desk.sessions slot).InSync desk.device) (hrun : desk.Run later) :
    (∀ limit session after,
      Client.startOiap wellKnownSecret ⟨start, limit⟩ = some (.ok session, after) →
        session.Opens start after.device) ∧
    (∀ command limit session after,
      Client.startOsap command wellKnownSecret ⟨start, limit⟩ = some (.ok session, after) →
        session.Opens start after.device) ∧
    ∀ slot, later.Coherent slot := by
  have hinvariant : desk.Invariant := by
    refine ⟨hdistinct, ?_⟩
    intro slot
    unfold Coherent
    rw [hidle slot]
    exact hsync slot
  refine ⟨?_, ?_, (Run.invariant hrun hinvariant).coherent⟩
  · intro limit session after hopen
    exact Client.startOiap_opens hstart.issued hopen
  · intro command limit session after hopen
    exact Client.startOsap_opens hstart.issued hopen

/-- A handler that returns a result for one block has left a response for its session. -/
theorem phase_deliver {desk : Desk ι} {slot : ι} {call : Call} {keep : Bool} {block : CommandAuth}
    {limit : Nat} {reply : Reply} {after : Client Simulator}
    (hphase : desk.phase slot = .authorized call keep block)
    (hfits : call.Fits [block] desk.device limit)
    (hsend : call.send [block] ⟨desk.device, limit⟩ = some (.ok reply, after)) :
    ∃ response, (desk.deliver call [slot] (.ok reply) after.device).phase slot =
      .answered keep call.command.ordinal reply.outParams response := by
  obtain ⟨⟨_, hnone⟩, _⟩ | ⟨_, hreply, _, _, _, _, _, _, _, hanswer, _⟩ := Call.answered hfits hsend
  · cases hnone
  · cases hreply
    obtain ⟨response, hresponse⟩ := List.length_eq_one_iff.mp (Simulator.length_answers hanswer)
    refine ⟨response, ?_⟩
    simp only [deliver, List.mem_singleton, if_true, hphase, Phase.answer, hresponse,
      List.zip_cons_cons, List.lookup_cons, beq_self_eq_true, Option.elim_some]

/-- Two sessions on one device. -/
def pair : Desk Bool :=
  { device := Simulator.afterOiaps
    sessions := fun slot => if slot then Session.second else Session.first }

def sealByte : Call := .sealData ⟨Handle.storageRootKey, .zero 20⟩ none [7]

def readRoot : Call := .getPubKey Handle.storageRootKey

/-- The sessions were authorized, the first one to be closed and the second to be kept. -/
def pairAuthorized : Desk Bool :=
  (pair.authorize false sealByte (.zero 20) false).authorize true readRoot (.zero 20) true

def sealBlock : CommandAuth :=
  (Session.first.setContinue false).block Ordinal.sealData
    (List.replicate 20 0 ++ [0, 0, 0, 0, 0, 0, 0, 1, 7]) (.zero 20)

def readBlock : CommandAuth := Session.second.block Ordinal.getPubKey [] (.zero 20)

/-- The second call comes first to the device. -/
theorem sends_interleaved : ∃ read sealed middle after,
    readRoot.send [readBlock] ⟨Simulator.afterOiaps, 0x100000000⟩ = some (.ok read, middle) ∧
      sealByte.send [sealBlock] ⟨middle.device, 0x100000000⟩ = some (.ok sealed, after) := by
  have hran : (readRoot.send [readBlock] ⟨Simulator.afterOiaps, 0x100000000⟩).any
      (fun (read, middle) => read.toOption.isSome &&
        (sealByte.send [sealBlock] ⟨middle.device, 0x100000000⟩).any fun (sealed, _) =>
          sealed.toOption.isSome) = true := by
    decide +kernel
  obtain ⟨⟨read, middle⟩, hread, hran⟩ := (Option.any_eq_true _ _).mp hran
  obtain ⟨hreadOk, hran⟩ := (Bool.and_eq_true _ _).mp hran
  obtain ⟨⟨sealed, after⟩, hseal, hsealOk⟩ := (Option.any_eq_true _ _).mp hran
  cases read with
  | error error => cases hreadOk
  | ok read =>
    cases sealed with
    | error error => cases hsealOk
    | ok sealed => exact ⟨read, sealed, middle, after, hread, hseal⟩

/-- Two exchanges go on at once. The one that asked to close its session has closed it at both ends,
and the session of the other is in sync. -/
theorem sessions_stay_in_sync_interleaved : ∃ later : Desk Bool, pair.Run later ∧
    (∀ limit session after,
      Client.startOiap wellKnownSecret ⟨({} : Simulator), limit⟩ = some (.ok session, after) →
        session.Opens {} after.device) ∧
    (∀ command limit session after,
      Client.startOsap command wellKnownSecret ⟨({} : Simulator), limit⟩ =
          some (.ok session, after) →
        session.Opens {} after.device) ∧
    (later.sessions false).Closed later.device ∧ (later.sessions true).InSync later.device := by
  obtain ⟨read, sealed, middle, after, hread, hseal⟩ := sends_interleaved
  have hfits : ∀ (call : Call) (block : CommandAuth) (sim : Simulator),
      call.Fits [block] sim 0x100000000 := fun _ _ _ => Call.fits_of_le (Nat.le_refl _)
  have hfirst : pairAuthorized.phase false = .authorized sealByte false sealBlock := rfl
  have hsecond : pairAuthorized.phase true = .authorized readRoot true readBlock := rfl
  let readDone : Desk Bool := pairAuthorized.deliver readRoot [true] (.ok read) middle.device
  let bothDone : Desk Bool := readDone.deliver sealByte [false] (.ok sealed) after.device
  obtain ⟨given, hgiven⟩ := phase_deliver hsecond (hfits _ _ _) hread
  obtain ⟨blob, hblob⟩ := @phase_deliver _ _ readDone false _ _ _ _ _ _ hfirst (hfits _ _ _) hseal
  have hbegun : pair.Run pairAuthorized :=
    .tail (.single (.authorize sealByte (.zero 20) false rfl))
      (.authorize readRoot (.zero 20) true rfl)
  have hreading : Step pairAuthorized readDone :=
    .send (List.nodup_singleton true) (.cons ⟨true, hsecond⟩ .nil) (hfits _ _ _) hread
  have hsealing : Step readDone bothDone :=
    .send (List.nodup_singleton false) (.cons ⟨false, hfirst⟩ .nil) (hfits _ _ _) hseal
  have hrun : pair.Run ((bothDone.check false false _ _ blob).check true true _ _ given) :=
    (((hbegun.tail hreading).tail hsealing).tail (.check hblob)).tail (.check hgiven)
  obtain ⟨hoiap, hosap, hcoherent⟩ := sessions_stay_in_sync ⟨3, .refl⟩
    (by
      rintro (_ | _) (_ | _) heq
      · rfl
      · cases heq
      · cases heq
      · rfl)
    (fun _ => rfl)
    (by
      rintro (_ | _)
      · exact Session.first_inSync_afterOiaps
      · exact Session.second_inSync)
    hrun
  exact ⟨_, hrun, hoiap, hosap, hcoherent false, hcoherent true⟩

end Desk

end TrustedModule
