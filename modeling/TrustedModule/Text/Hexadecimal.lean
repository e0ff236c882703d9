/-!
# Hexadecimal numerals

Upper-case base-16 numerals: as many digits as the number needs, or a fixed count with leading
zeros.
-/

set_option autoImplicit false

namespace TrustedModule.Text

/-- The numeral without a leading zero, `0` itself apart. -/
def hexadecimal (n : Nat) : String :=
  String.ofList ((Nat.toDigits 16 n).map Char.toUpper)

/-- The numeral filled up with leading zeros to `width` digits. -/
def paddedHexadecimal (width n : Nat) : String :=
  let digits := (Nat.toDigits 16 n).map Char.toUpper
  String.ofList (List.replicate (width - digits.length) '0' ++ digits)

end TrustedModule.Text
