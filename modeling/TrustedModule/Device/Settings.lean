/-!
# Device settings

Where the device is and how many bytes to read of a response. Two settings, each a text that may be
absent, override the defaults; one that makes no sense is ignored.
-/

set_option autoImplicit false

namespace TrustedModule

structure DeviceSettings where
  path : String := "/dev/tpm0"
  maxResponse : Nat := 4096
  deriving DecidableEq, Repr

namespace DeviceSettings

/-- The number that decimal digits denote; `none` for anything else, the empty text included. -/
def ofDigits? (digits : List Char) : Option Nat :=
  if digits.isEmpty then none
  else
    digits.foldlM
      (fun value digit =>
        if digit.isDigit then some (value * 10 + (digit.toNat - 48)) else none)
      0

/-- A size of at most 64 bits in decimal, perhaps after a plus sign. -/
def parseSize? (text : String) : Option Nat :=
  let digits := match text.toList with
    | '+' :: rest => rest
    | all => all
  (ofDigits? digits).filter (· < 0x10000000000000000)

/-- A text is handed over with a zero at its end, so one that has a zero in it cannot be. -/
def isTransferable (text : String) : Bool := text.toList.all (· ≠ '\x00')

/-- The settings that two texts make, if they can be handed over. An empty path and a size that is
no positive number are ignored. -/
def ofTexts? (path maxResponse : Option String) : Option DeviceSettings :=
  if path.all isTransferable && maxResponse.all isTransferable then
    some
      { path := (path.filter (· ≠ "")).getD "/dev/tpm0"
        maxResponse := ((maxResponse.bind parseSize?).filter (0 < ·)).getD 4096 }
  else
    none

end DeviceSettings

end TrustedModule
