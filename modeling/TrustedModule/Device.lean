import TrustedModule.Bytes

/-!
# Devices

A device takes the bytes of a command in one write and gives the bytes of an answer in one read. It
is a state that these two calls change. A device may halt during a write, and then there is no
result and no state after it.
-/

set_option autoImplicit false

namespace TrustedModule

class Device (σ : Type) where
  /-- How many of the bytes the device took, or the text of an I/O failure; `none` if it halted. -/
  write : Bytes → σ → Option (Except String Nat × σ)
  /-- At most so many bytes of what the device has to say, or the text of an I/O failure. -/
  read : Nat → σ → Except String Bytes × σ

end TrustedModule
