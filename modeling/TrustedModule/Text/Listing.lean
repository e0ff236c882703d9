/-!
# Listings

The readable form of a value: a list in square brackets, a record as its name and its labelled
parts in braces.
-/

set_option autoImplicit false

namespace TrustedModule.Text

def list (parts : List String) : String :=
  "[" ++ ", ".intercalate parts ++ "]"

def record (name : String) (parts : List String) : String :=
  name ++ " \x7b " ++ ", ".intercalate parts ++ " \x7d"

def part (label text : String) : String :=
  label ++ ": " ++ text

/-- Every byte as a decimal number. -/
def bytes (bytes : List UInt8) : String :=
  list (bytes.map toString)

end TrustedModule.Text
