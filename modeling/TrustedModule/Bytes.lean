/-!
# Bytes, fixed-size blocks and big-endian numbers

Everything on the wire is a byte string. A number takes a fixed count of bytes with the most
significant one first; `ofBigEndian` reads back what `bigEndian` writes, and `bigEndian` rebuilds
every byte string from its value and its length, so the two forms are interchangeable.

Bytes are also reached for by their offsets: as slices, as the two sides of an offset, and one by
one. Nothing is there for offsets that run backwards or past the end.
-/

set_option autoImplicit false

namespace TrustedModule

abbrev Bytes := List UInt8

/-- The last `width` base-256 digits of a number, most significant first. -/
def bigEndian : Nat → Nat → Bytes
  | 0, _ => []
  | width + 1, n => bigEndian width (n / 256) ++ [UInt8.ofNat n]

/-- The number that a byte string denotes in base 256. -/
def ofBigEndian (bytes : Bytes) : Nat :=
  bytes.foldl (fun value byte => value * 256 + byte.toNat) 0

@[simp] theorem length_bigEndian (width n : Nat) : (bigEndian width n).length = width := by
  induction width generalizing n with
  | zero => rfl
  | succ width ih => simp [bigEndian, ih]

@[simp] theorem ofBigEndian_append_singleton (bytes : Bytes) (byte : UInt8) :
    ofBigEndian (bytes ++ [byte]) = ofBigEndian bytes * 256 + byte.toNat := by
  simp [ofBigEndian]

theorem bigEndian_ofBigEndian (bytes : Bytes) :
    bigEndian bytes.length (ofBigEndian bytes) = bytes := by
  rw [← List.reverse_reverse bytes]
  induction bytes.reverse with
  | nil => rfl
  | cons byte rest ih =>
    have hb := byte.toNat_lt
    have hdiv : (ofBigEndian rest.reverse * 256 + byte.toNat) / 256 = ofBigEndian rest.reverse := by
      omega
    have hlast : UInt8.ofNat (ofBigEndian rest.reverse * 256 + byte.toNat) = byte := by
      apply UInt8.toNat_inj.mp
      rw [UInt8.toNat_ofNat']
      omega
    rw [List.reverse_cons, ofBigEndian_append_singleton, List.length_append, List.length_singleton,
      bigEndian, hdiv, hlast, ih]

/-- The fewest bytes that hold a number, at least one. -/
def byteWidth (n : Nat) : Nat := n.log2 / 8 + 1

/-! ## Reaching for bytes -/

/-- The bytes from one offset up to another. -/
def slice? (start stop : Nat) (bytes : Bytes) : Option Bytes :=
  if start ≤ stop ∧ stop ≤ bytes.length then some (bytes.extract start stop) else none

/-- The bytes before an offset, and those from it on. -/
def splitAt? (offset : Nat) (bytes : Bytes) : Option (Bytes × Bytes) :=
  if offset ≤ bytes.length then some (bytes.splitAt offset) else none

/-- The first `width` bytes, each looked up by its index. -/
def entries? : Nat → Bytes → Option Bytes
  | 0, _ => some []
  | width + 1, bytes => do return (← entries? width bytes) ++ [← bytes[width]?]

/-- A difference of offsets, which does not go below zero. -/
def difference? (a b : Nat) : Option Nat := if b ≤ a then some (a - b) else none

theorem slice?_of_le {start stop : Nat} {bytes : Bytes} (hstart : start ≤ stop)
    (hstop : stop ≤ bytes.length) : slice? start stop bytes = some (bytes.extract start stop) :=
  if_pos ⟨hstart, hstop⟩

theorem slice?_append {front middle rest : Bytes} {start stop : Nat} (hstart : front.length = start)
    (hstop : start + middle.length = stop) :
    slice? start stop (front ++ middle ++ rest) = some middle := by
  subst hstart hstop
  rw [slice?_of_le (Nat.le_add_right ..) (by simp), List.extract_eq_take_drop, List.append_assoc,
    List.drop_left, Nat.add_sub_cancel_left, List.take_left]

theorem slice?_zero {stop : Nat} {bytes : Bytes} (h : stop ≤ bytes.length) :
    slice? 0 stop bytes = some (bytes.take stop) := by
  rw [slice?_of_le (Nat.zero_le _) h, List.extract_eq_take_drop, List.drop_zero, Nat.sub_zero]

theorem slice?_take {start stop : Nat} {bytes : Bytes} (hstart : start ≤ stop)
    (hstop : stop ≤ bytes.length) :
    slice? start stop bytes = some ((bytes.take stop).drop start) := by
  rw [slice?_of_le hstart hstop, List.extract_eq_take_drop, List.drop_take]

theorem slice?_length {start : Nat} {bytes : Bytes} (h : start ≤ bytes.length) :
    slice? start bytes.length bytes = some (bytes.drop start) := by
  rw [slice?_of_le h (Nat.le_refl _), List.extract_eq_take_drop, ← List.length_drop,
    List.take_length]

theorem splitAt?_append {front : Bytes} {offset : Nat} (h : front.length = offset) (rest : Bytes) :
    splitAt? offset (front ++ rest) = some (front, rest) := by
  subst h
  rw [splitAt?, if_pos (by simp), List.splitAt_eq, List.take_left, List.drop_left]

theorem entries?_eq {width : Nat} {bytes : Bytes} (h : width ≤ bytes.length) :
    entries? width bytes = some (bytes.take width) := by
  induction width with
  | zero => rfl
  | succ width ih =>
    rw [entries?, ih (Nat.le_of_succ_le h), List.getElem?_eq_getElem h]
    simp

theorem difference?_add (a b : Nat) : difference? (a + b) b = some a := by
  rw [difference?, if_pos (Nat.le_add_left ..), Nat.add_sub_cancel]

/-- A byte string of exactly `size` bytes. -/
@[ext] structure Block (size : Nat) where
  bytes : Bytes
  length_bytes : bytes.length = size
  deriving DecidableEq, Repr

attribute [simp] Block.length_bytes

namespace Block

def zero (size : Nat) : Block size := ⟨List.replicate size 0, List.length_replicate⟩

instance (size : Nat) : Inhabited (Block size) := ⟨zero size⟩

def ofBytes? (size : Nat) (bytes : Bytes) : Option (Block size) :=
  if h : bytes.length = size then some ⟨bytes, h⟩ else none

/-- The bytewise exclusive or. -/
def xor {size : Nat} (a b : Block size) : Block size :=
  ⟨List.zipWith (· ^^^ ·) a.bytes b.bytes, by simp⟩

end Block

/-- A SHA-1 digest, a nonce or a usage secret. -/
abbrev Digest := Block 20

end TrustedModule
