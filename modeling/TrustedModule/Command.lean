/-!
# Tags, ordinals and handles

A command names its tag, which tells how many authorization blocks end it, and its ordinal. The
tag of its answer is three higher.
-/

set_option autoImplicit false

namespace TrustedModule

/-- A reference to a key or a session that the device holds. -/
abbrev Handle := UInt32

namespace Tag

def request : UInt16 := 0xC1
def request1 : UInt16 := 0xC2
def request2 : UInt16 := 0xC3
def response : UInt16 := 0xC4
def response1 : UInt16 := 0xC5
def response2 : UInt16 := 0xC6

def pcrInfoLong : UInt16 := 0x06
def capVersionInfo : UInt16 := 0x30
def quoteInfo2 : UInt16 := 0x36

/-- The tag that answers a request tag; it wraps around at the end of the 16-bit range. -/
def answering (tag : UInt16) : UInt16 := tag + 3

/-- How many authorization blocks end a message with the tag. -/
def authCount (tag : UInt16) : Nat :=
  if tag = request1 ∨ tag = response1 then 1
  else if tag = request2 ∨ tag = response2 then 2
  else 0

end Tag

namespace Ordinal

def oiap : UInt32 := 0x0A
def osap : UInt32 := 0x0B
def pcrRead : UInt32 := 0x15
def sealData : UInt32 := 0x17
def unsealData : UInt32 := 0x18
def getPubKey : UInt32 := 0x21
def quote2 : UInt32 := 0x3E
def loadKey2 : UInt32 := 0x41
def flushSpecific : UInt32 := 0xBA

end Ordinal

/-! The kinds of resource that FlushSpecific releases. -/

namespace Resource

def key : UInt32 := 0x01
def auth : UInt32 := 0x02

end Resource

/-- The storage root key, which is always loaded. -/
def Handle.storageRootKey : Handle := 0x40000000

end TrustedModule
