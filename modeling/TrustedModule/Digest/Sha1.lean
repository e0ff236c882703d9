import TrustedModule.Bytes

/-!
# SHA-1

A hash of 20 bytes: the message is padded to whole blocks of 64 bytes, and each block is mixed into
five 32-bit words over eighty rounds. The words of the message schedule are kept in a window of
sixteen; each round takes the first and appends the next.
-/

set_option autoImplicit false

namespace TrustedModule.Sha1

/-- The five chained words. -/
structure State where
  a : UInt32
  b : UInt32
  c : UInt32
  d : UInt32
  e : UInt32
  deriving DecidableEq, Repr

def State.initial : State := ⟨0x67452301, 0xEFCDAB89, 0x98BADCFE, 0x10325476, 0xC3D2E1F0⟩

def State.add (x y : State) : State := ⟨x.a + y.a, x.b + y.b, x.c + y.c, x.d + y.d, x.e + y.e⟩

def rotateLeft (word count : UInt32) : UInt32 :=
  (word <<< count) ||| (word >>> (32 - count))

/-- The function and the constant of each quarter of the eighty rounds. -/
def roundMix (round : Nat) (b c d : UInt32) : UInt32 :=
  if round < 20 then ((b &&& c) ||| (~~~b &&& d)) + 0x5A827999
  else if round < 40 then (b ^^^ c ^^^ d) + 0x6ED9EBA1
  else if round < 60 then ((b &&& c) ||| (b &&& d) ||| (c &&& d)) + 0x8F1BBCDC
  else (b ^^^ c ^^^ d) + 0xCA62C1D6

def stepRound (round : Nat) (word : UInt32) (state : State) : State :=
  { a := rotateLeft state.a 5 + roundMix round state.b state.c state.d + state.e + word
    b := state.a
    c := rotateLeft state.b 30
    d := state.c
    e := state.d }

/-- The word that enters the schedule when `rest` are the last fifteen and `first` is before
them. -/
def nextWord (first : UInt32) (rest : List UInt32) : UInt32 :=
  rotateLeft (rest.getD 12 0 ^^^ rest.getD 7 0 ^^^ rest.getD 1 0 ^^^ first) 1

/-- The last `count` of the eighty rounds. -/
def runRounds : Nat → List UInt32 → State → State
  | count + 1, first :: rest, state =>
    runRounds count (rest ++ [nextWord first rest]) (stepRound (79 - count) first state)
  | _, _, state => state

/-- The words of a byte string, four bytes each; fewer than four bytes at the end are dropped. -/
def words : Bytes → List UInt32
  | a :: b :: c :: d :: rest =>
    ((a.toUInt32 <<< 24) ||| (b.toUInt32 <<< 16) ||| (c.toUInt32 <<< 8) ||| d.toUInt32) ::
      words rest
  | _ => []

def compress (state : State) (block : Bytes) : State :=
  state.add (runRounds 80 (words block) state)

/-- Mixes in the first `count` blocks of 64 bytes. -/
def compressBlocks : Nat → Bytes → State → State
  | 0, _, state => state
  | count + 1, bytes, state =>
    compressBlocks count (bytes.drop 64) (compress state (bytes.take 64))

/-- How many zero bytes put the eight bytes of the length at the end of a block. -/
def paddingZeros (length : Nat) : Nat := (119 - length % 64) % 64

/-- The message, the byte 0x80, zeros, and the length in bits. -/
def pad (message : Bytes) : Bytes :=
  message ++ 0x80 :: List.replicate (paddingZeros message.length) 0 ++
    bigEndian 8 (8 * message.length)

def State.digest (state : State) : Digest :=
  ⟨bigEndian 4 state.a.toNat ++ bigEndian 4 state.b.toNat ++ bigEndian 4 state.c.toNat ++
    bigEndian 4 state.d.toNat ++ bigEndian 4 state.e.toNat, by simp⟩

end TrustedModule.Sha1

namespace TrustedModule

def sha1 (message : Bytes) : Digest :=
  let padded := Sha1.pad message
  (Sha1.compressBlocks (padded.length / 64) padded Sha1.State.initial).digest

end TrustedModule
