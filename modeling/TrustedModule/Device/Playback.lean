import TrustedModule.Device

/-!
# Playback device

A device that answers from a list of prepared responses, whatever it is asked, and keeps a log of
what was written to it. It can be told to take only part of each write.
-/

set_option autoImplicit false

namespace TrustedModule

structure PlaybackDevice where
  responses : List Bytes := []
  /-- The bytes taken from each write so far. -/
  writes : List Bytes := []
  /-- The most bytes that a write may take. -/
  acceptLimit : Option Nat := none
  deriving DecidableEq, Repr

namespace PlaybackDevice

/-- How many responses are left. -/
def pending (device : PlaybackDevice) : Nat := device.responses.length

/-- Takes the front of a write, as much of it as the limit allows. -/
def write (bytes : Bytes) (device : PlaybackDevice) : Nat × PlaybackDevice :=
  let taken := match device.acceptLimit with
    | some limit => bytes.take limit
    | none => bytes
  (taken.length, { device with writes := device.writes ++ [taken] })

/-- Gives the front of the next response; what does not fit into the read is lost. -/
def read (limit : Nat) (device : PlaybackDevice) : Except String Bytes × PlaybackDevice :=
  match device.responses with
  | [] => (.error "no scripted response", device)
  | next :: rest => (.ok (next.take limit), { device with responses := rest })

instance : Device PlaybackDevice where
  write bytes device :=
    let (count, device) := device.write bytes
    some (.ok count, device)
  read := read

end PlaybackDevice

end TrustedModule
