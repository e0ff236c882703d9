import TrustedModule.Device

/-!
# Faulty devices

A device of any kind behind a connection that can break. While it is broken every write fails with
the same text and does not reach the device; reads still do.
-/

set_option autoImplicit false

namespace TrustedModule

structure FaultyDevice (σ : Type) where
  device : σ
  /-- The text with which every write fails, if it does. -/
  writeFailure : Option String := none
  deriving DecidableEq, Repr

namespace FaultyDevice

variable {σ : Type} [Device σ]

def write (bytes : Bytes) (faulty : FaultyDevice σ) :
    Option (Except String Nat × FaultyDevice σ) :=
  match faulty.writeFailure with
  | some text => some (.error text, faulty)
  | none =>
    (Device.write bytes faulty.device).map fun (written, device) =>
      (written, { faulty with device })

def read (limit : Nat) (faulty : FaultyDevice σ) : Except String Bytes × FaultyDevice σ :=
  let (answer, device) := Device.read limit faulty.device
  (answer, { faulty with device })

instance : Device (FaultyDevice σ) where
  write := write
  read := read

end FaultyDevice

end TrustedModule
