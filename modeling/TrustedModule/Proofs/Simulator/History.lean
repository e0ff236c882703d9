import TrustedModule.Proofs.Simulator.Effects

/-!
# Histories of the simulator

A history is all that was done to a simulator: commands that were written, answers that were read,
and the sizes that its session table was given. Any bytes may be written, and nothing may follow a
command at which the simulator halts. A command counts as accepted if its answer carries return code
zero; whatever else is done is quiet, and leaves the tables as they are.
-/

set_option autoImplicit false

namespace TrustedModule

namespace Simulator

/-! ## Answers -/

/-- The return code of the answer that waits to be read. -/
def returnCode? (sim : Simulator) : Option UInt32 :=
  sim.pending.bind fun answer =>
    ((ResponseHeader.unframe answer).bind Except.toOption).map ResponseHeader.returnCode

/-- The handle at the front of the answer that waits to be read, behind its header. -/
def issued? (sim : Simulator) : Option Handle :=
  sim.pending.map fun answer => UInt32.ofNat (ofBigEndian ((answer.drop headerSize).take 4))

theorem returnCode?_of_pending {sim : Simulator} {tag : UInt16} {code : ReturnCode} {body : Bytes}
    (h : sim.pending = some (answer tag code body)) : sim.returnCode? = some code.value := by
  unfold returnCode?
  rw [h, Option.bind_some, ResponseHeader.unframe_whole]
  rfl

theorem issued?_of_pending {sim : Simulator} {tag : UInt16} {code : ReturnCode} {body : Bytes}
    {handle : Handle} (h : sim.pending = some (answer tag code body))
    (hbody : body.take 4 = bigEndian 4 handle.toNat) : sim.issued? = some handle := by
  unfold issued?
  rw [h, Option.map_some, drop_answer, hbody, ofBigEndian_toNat, UInt32.ofNat_toNat]

/-- A command is refused, with a return code other than zero, or answered with zero and done. -/
theorem write_cases {command : Bytes} {sim next : Simulator} {written : Except String Nat}
    (h : Device.write command sim = some (written, next)) :
    (∃ code, code ≠ 0 ∧ next.returnCode? = some code ∧
      Refused (Request.ofCommand? command) sim next) ∨
    ∃ tag ordinal request body middle, Request.ofCommand? command = some request ∧
      Effect request (sim.logged ordinal) body middle ∧ next.returnCode? = some 0 ∧
      next = { middle with pending := some (answer tag .success body) } := by
  obtain ⟨⟨bytes, final⟩, hexecute, heq⟩ := Option.map_eq_some_iff.mp h
  obtain ⟨_, rfl⟩ := Prod.mk.inj heq
  rcases execute_cases hexecute with ⟨tag, code, hcode, rfl, hrefused⟩ |
    ⟨tag, ordinal, request, body, hrequest, rfl, heffect⟩
  · refine .inl ⟨code.value, ?_, returnCode?_of_pending rfl, { hrefused with }⟩
    intro hzero
    apply hcode
    cases code
    exact congrArg ReturnCode.mk hzero
  · exact .inr ⟨tag, ordinal, request, body, final, hrequest, heffect, returnCode?_of_pending rfl,
      rfl⟩

/-! ## Actions -/

/-- What can be done to a simulator. -/
inductive Action
  | write (command : Bytes)
  | read (limit : Nat)
  | resize (maxSessions : Nat)

/-- The simulator after the action; `none` if it halts. -/
def act : Action → Simulator → Option Simulator
  | .write command, sim => (Device.write command sim).map Prod.snd
  | .read limit, sim => some (Device.read limit sim).2
  | .resize maxSessions, sim => some { sim with maxSessions }

theorem act_of_write {command : Bytes} {sim next : Simulator} {written : Except String Nat}
    (h : Device.write command sim = some (written, next)) :
    act (.write command) sim = some next := by
  simp only [act, h, Option.map_some]

/-- One action, between the two states. -/
structure Event where
  before : Simulator
  action : Action
  after : Simulator

namespace Event

/-- The request of a command that was accepted. -/
def accepted? (event : Event) : Option Request :=
  match event.action with
  | .write command =>
    if event.after.returnCode? = some 0 then Request.ofCommand? command else none
  | _ => none

theorem accepted?_of_returnCode? {command : Bytes} {sim next : Simulator}
    (h : next.returnCode? = some 0) :
    accepted? ⟨sim, .write command, next⟩ = Request.ofCommand? command :=
  if_pos h

theorem exists_command {event : Event} {request : Request}
    (h : event.accepted? = some request) :
    ∃ command, Request.ofCommand? command = some request := by
  unfold accepted? at h
  split at h
  · rename_i command _
    split at h
    · exact ⟨command, h⟩
    · cases h
  · cases h

/-- No counter has started over. -/
structure Advances (event : Event) : Prop where
  sessions : event.before.nextSession ≤ event.after.nextSession
  keys : event.before.nextKey ≤ event.after.nextKey
  nonces : event.before.nonceCounter ≤ event.after.nonceCounter

/-- Nothing was accepted, and the tables were left alone. -/
structure Quiet (event : Event) : Prop extends SameTables event.before event.after where
  accepted : event.accepted? = none

/-- How much an event adds to a count of accepted requests. -/
def weight (count : Request → Nat) (event : Event) : Nat := event.accepted?.elim 0 count

theorem weight_of_accepted? {count : Request → Nat} {event : Event} {request : Request}
    (h : event.accepted? = some request) : event.weight count = count request := by
  unfold weight
  rw [h, Option.elim_some]

theorem Quiet.weight_eq {event : Event} (h : event.Quiet) (count : Request → Nat) :
    event.weight count = 0 := by
  unfold weight
  rw [h.accepted, Option.elim_none]

end Event

/-- Whatever is done is quiet, or has the effect of an accepted request. -/
theorem act_cases {action : Action} {sim next : Simulator} (h : act action sim = some next) :
    Event.Quiet ⟨sim, action, next⟩ ∨ ∃ tag ordinal request body middle,
      Event.accepted? ⟨sim, action, next⟩ = some request ∧
      Effect request (sim.logged ordinal) body middle ∧
      next = { middle with pending := some (answer tag .success body) } := by
  cases action with
  | write command =>
    obtain ⟨⟨written, final⟩, hwrite, rfl⟩ := Option.map_eq_some_iff.mp h
    rcases write_cases hwrite with ⟨code, hcode, hreturn, hrefused⟩ |
      ⟨tag, ordinal, request, body, middle, hrequest, heffect, hreturn, hnext⟩
    · have hnone : Event.accepted? ⟨sim, .write command, final⟩ = none :=
        if_neg fun hzero => hcode (Option.some.inj (hreturn.symm.trans hzero))
      exact .inl { hrefused with accepted := hnone }
    · exact .inr ⟨tag, ordinal, request, body, middle,
        (Event.accepted?_of_returnCode? hreturn).trans hrequest, heffect, hnext⟩
  | read limit =>
    left
    cases h
    simp only [Device.read]
    split
    · exact { SameTables.refl sim with accepted := rfl }
    · exact { SameTables.refl sim with accepted := rfl }
  | resize maxSessions =>
    left
    cases h
    exact { SameTables.refl sim with accepted := rfl }

/-! ## Histories -/

/-- What was done since the simulator was in the state `start`, the last event first. -/
inductive History (start : Simulator) : List Event → Simulator → Prop
  | nil : History start [] start
  | cons {events : List Event} {sim next : Simulator} {action : Action}
      (hpast : History start events sim) (hact : act action sim = some next) :
      History start (⟨sim, action, next⟩ :: events) next

/-- Every event stands at the end of a history of its own. -/
theorem History.split {start sim : Simulator} {later earlier : List Event} {event : Event}
    (h : History start (later ++ event :: earlier) sim) :
    History start earlier event.before ∧ act event.action event.before = some event.after := by
  induction later generalizing sim with
  | nil =>
    cases h with
    | cons hpast hact => exact ⟨hpast, hact⟩
  | cons last later ih =>
    cases h with
    | cons hpast _ => exact ih hpast

/-- A count over all accepted requests. -/
def tally (count : Request → Nat) : List Event → Nat
  | [] => 0
  | event :: events => event.weight count + tally count events

theorem tally_cons (count : Request → Nat) (event : Event) (events : List Event) :
    tally count (event :: events) = event.weight count + tally count events := rfl

theorem tally_append (count : Request → Nat) (events others : List Event) :
    tally count (events ++ others) = tally count events + tally count others := by
  induction events with
  | nil => exact (Nat.zero_add _).symm
  | cons event events ih => rw [List.cons_append, tally_cons, tally_cons, ih, Nat.add_assoc]

/-! ## Counters -/

section Counters

variable {action : Action} {sim next : Simulator}

theorem act_registers (h : act action sim = some next) : next.registers = sim.registers := by
  rcases act_cases h with hquiet | ⟨_, _, request, _, middle, _, heffect, rfl⟩
  · exact hquiet.registers
  · exact heffect.registers_eq

/-- The handle counter of the sessions counts those that were opened. -/
theorem act_nextSession (h : act action sim = some next) :
    next.nextSession =
      sim.nextSession + UInt32.ofNat (Event.weight Request.opens ⟨sim, action, next⟩) := by
  rcases act_cases h with hquiet | ⟨_, _, request, _, middle, haccepted, heffect, rfl⟩
  · rw [hquiet.weight_eq, hquiet.nextSession]
    exact (UInt32.add_zero _).symm
  · rw [Event.weight_of_accepted? haccepted]
    exact heffect.nextSession_eq

/-- The handle counter of the keys counts those that were loaded. -/
theorem act_nextKey (h : act action sim = some next) :
    next.nextKey = sim.nextKey + UInt32.ofNat (Event.weight Request.loads ⟨sim, action, next⟩) := by
  rcases act_cases h with hquiet | ⟨_, _, request, _, middle, haccepted, heffect, rfl⟩
  · rw [hquiet.weight_eq, hquiet.nextKey]
    exact (UInt32.add_zero _).symm
  · rw [Event.weight_of_accepted? haccepted]
    exact heffect.nextKey_eq

end Counters

/-- The registers are never written. -/
theorem History.registers_eq {start sim : Simulator} {events : List Event}
    (h : History start events sim) : sim.registers = start.registers := by
  induction h with
  | nil => rfl
  | cons _ hact ih => exact (act_registers hact).trans ih

end Simulator

end TrustedModule
