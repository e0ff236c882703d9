import TrustedModule.Proofs.Wire.Reading
import TrustedModule.Proofs.Wire.Verdicts
import TrustedModule.Structure.Header
import TrustedModule.Structure.Authorization
import TrustedModule.Structure.Storage
import TrustedModule.Structure.Pcr
import TrustedModule.Structure.Key
import TrustedModule.Structure.Version

/-!
# Sizes and appends

Three things tell how long a structure is on the wire: the bytes that are written, the size that is
reported, and the static size that its form has. They agree, and the reader goes over as many bytes.
A writer appends these bytes to any buffer and changes nothing else, so the bytes of two lists run
together are those of the one and then those of the other, and every count in front of a structure
is the length of the structure behind it.
-/

set_option autoImplicit false

namespace TrustedModule

/-- The buffer has become longer by `bytes` at its far end, under a cursor that did not move. -/
structure Buffer.Grown (before after : Buffer) (bytes : Bytes) : Prop where
  contents_eq : after.contents = before.contents ++ bytes
  position_eq : after.position = before.position

theorem Buffer.grown_append (buffer : Buffer) (bytes : Bytes) :
    Grown buffer (buffer.append bytes) bytes :=
  ⟨contents_append bytes buffer, position_append bytes buffer⟩

/-! ## Structures -/

namespace Wire

variable {α : Type} [Wire α]

/-- A structure is written into every buffer alike; where this succeeds, its bytes are appended. -/
theorem write_grows (a : α) (buffer : Buffer) :
    ∃ result after bytes, write a buffer = (result, after) ∧ buffer.Grown after bytes ∧
      encode a = result.map fun () => bytes := by
  obtain ⟨result, bytes, happends⟩ := (layout α).appends (toValue a)
  exact ⟨result, _, bytes, happends buffer, buffer.grown_append bytes, happends.output_eq⟩

theorem wireSize_eq (a : α) : wireSize a = (encode a).map List.length :=
  (layout α).wireSize_eq (toValue a)

theorem encode_of_fixedSize {size : Nat} (h : (layout α).fixedSize = some size) (a : α) :
    ∃ bytes, encode a = .ok bytes ∧ bytes.length = size :=
  Layout.encode_of_fixedSize h (toValue a)

theorem fill_of_fixedSize {size : Nat} {buffer : Buffer} (h : (layout α).fixedSize = some size)
    (target : α) (hroom : size ≤ buffer.remaining) :
    ∃ a, fill target buffer = ⟨a, .ok (), buffer.advance size⟩ := by
  obtain ⟨value, hfill⟩ := Layout.fill_of_fixedSize h (toValue target) hroom
  refine ⟨ofValue value, ?_⟩
  rw [fill, hfill]
  rfl

end Wire

/-! ## Field lists -/

namespace Field

theorem encode_append {fields others : List Field} {bytes : Bytes}
    (h : encode (fields ++ others) = .ok bytes) :
    ∃ front back, encode fields = .ok front ∧ encode others = .ok back ∧
      bytes = front ++ back := by
  obtain ⟨hlayout, heach⟩ := encode_eq_ok.mp h
  rw [List.map_append] at hlayout
  rw [encodeEach_append] at heach
  obtain ⟨hfields, hothers⟩ := FieldKind.layoutFault?_of_append hlayout
  obtain ⟨front, back, hfront, hback, rfl⟩ := append_eq_ok.mp heach
  exact ⟨front, back, encode_eq_ok.mpr ⟨hfields, hfront⟩, encode_eq_ok.mpr ⟨hothers, hback⟩, rfl⟩

theorem encode_singleton {field : Field} {bytes : Bytes} (h : encode [field] = .ok bytes) :
    field.kind.encode field.value = .ok bytes := by
  obtain ⟨first, rest, hfirst, hrest, rfl⟩ := append_eq_ok.mp (encode_eq_ok.mp h).2
  cases hrest
  rw [hfirst, List.append_nil]

/-- Wherever a counted structure stands in a list, the count in front of it is its length. -/
theorem encode_counted {before after : List Field} {layout : Layout} {value : layout.Value}
    {bytes : Bytes} (h : encode (before ++ ⟨.sizedPlain layout, value⟩ :: after) = .ok bytes) :
    ∃ front count counted back, encode before = .ok front ∧ layout.encode value = .ok counted ∧
      encode after = .ok back ∧ bytes = front ++ (count ++ counted) ++ back ∧
      count.length = 4 ∧ ofBigEndian count = counted.length := by
  obtain ⟨front, rest, hfront, hrest, rfl⟩ := encode_append h
  obtain ⟨middle, back, hmiddle, hback, rfl⟩ :=
    @encode_append [⟨.sizedPlain layout, value⟩] after rest hrest
  obtain ⟨counted, hcounted, hlength, rfl⟩ :=
    FieldKind.encode_sizedPlain_eq_ok (encode_singleton hmiddle)
  exact ⟨front, bigEndian 4 counted.length, counted, back, hfront, hcounted, hback,
    (List.append_assoc ..).symm, length_bigEndian .., ofBigEndian_of_lt hlength⟩

end Field

/-! ## The structures of the format -/

/-- The static size of each structure. One that holds counted bytes or a mask has none. -/
def structureSizes : List (Layout × Option Nat) :=
  [(Wire.layout CommandHeader, some headerSize),
    (Wire.layout ResponseHeader, some headerSize),
    (Wire.layout CommandAuth, some CommandAuth.wireLength),
    (Wire.layout ResponseAuth, some ResponseAuth.wireLength),
    (Wire.layout OiapResponse, some (4 + 20)),
    (Wire.layout OsapCommand, some (2 + 4 + 20)),
    (Wire.layout OsapResponse, some (4 + 2 * 20)),
    (Wire.layout SealCommand, some (4 + 20)),
    (Wire.layout StoredData, none),
    (Wire.layout PcrSelection, none),
    (Wire.layout PcrInfoLong, none),
    (Wire.layout PcrInfoShort, none),
    (Wire.layout KeyParms, none),
    (Wire.layout RsaKeyParms, none),
    (Wire.layout PubKey, none),
    (Wire.layout Key, none),
    (Wire.layout CapVersionFixed, some CapVersionFixed.wireLength)]

theorem fixedSize_structures : ∀ row ∈ structureSizes, row.1.fixedSize = row.2 := by
  decide

/-- Sizes and appends agree. A structure is written into every buffer with one result: its bytes,
if it has an encoding, are appended, and earlier bytes and the cursor stay as they are. The size
that is reported is the length of the encoding, or its error if there is none. A static size is the
length of every encoding, every value has one, and a reader succeeds on that many bytes and goes
over no more; `structureSizes` lists the structures that have one. The bytes of two lists that can
be written as one are those of the first and then those of the second, and in front of each counted
structure in them stand four bytes with the length of its encoding, which follows. -/
theorem sizes_agree :
    (∀ (α : Type) [Wire α] (a : α),
      (∀ buffer, ∃ result after bytes, Wire.write a buffer = (result, after) ∧
        buffer.Grown after bytes ∧ Wire.encode a = result.map fun () => bytes) ∧
      Wire.wireSize a = (Wire.encode a).map List.length ∧
      ∀ size, (Wire.layout α).fixedSize = some size →
        (∃ bytes, Wire.encode a = .ok bytes ∧ bytes.length = size) ∧
        ∀ buffer, size ≤ buffer.remaining →
          ∃ read, Wire.fill a buffer = ⟨read, .ok (), buffer.advance size⟩) ∧
    (∀ row ∈ structureSizes, row.1.fixedSize = row.2) ∧
    ∀ (fields others : List Field) (bytes : Bytes), Field.encode (fields ++ others) = .ok bytes →
      (∃ front back, Field.encode fields = .ok front ∧ Field.encode others = .ok back ∧
        bytes = front ++ back) ∧
      ∀ (before after : List Field) (layout : Layout) (value : layout.Value),
        fields ++ others = before ++ ⟨.sizedPlain layout, value⟩ :: after →
        ∃ front count counted back, Field.encode before = .ok front ∧
          layout.encode value = .ok counted ∧ Field.encode after = .ok back ∧
          bytes = front ++ (count ++ counted) ++ back ∧
          count.length = 4 ∧ ofBigEndian count = counted.length := by
  refine ⟨fun α _ a => ⟨Wire.write_grows a, Wire.wireSize_eq a, fun size hsize =>
    ⟨Wire.encode_of_fixedSize hsize a, fun buffer hroom => Wire.fill_of_fixedSize hsize a hroom⟩⟩,
    fixedSize_structures, fun fields others bytes h => ⟨Field.encode_append h, ?_⟩⟩
  intro before after layout value hsplit
  rw [hsplit] at h
  exact Field.encode_counted h

/-- A mask of one byte, the ten bytes of a header, and two lists with a counted mask between
them. -/
theorem sizes_agree_samples :
    Wire.wireSize (⟨[255]⟩ : PcrSelection) = .ok 3 ∧
    (Wire.layout CommandHeader).fixedSize = some headerSize ∧
    (∃ read, Wire.fill ({} : CommandHeader) (Buffer.ofBytes (List.replicate 12 1)) =
      ⟨read, .ok (), (Buffer.ofBytes (List.replicate 12 1)).advance headerSize⟩) ∧
    ∃ front count counted back,
      Field.encode [⟨.plain .flag, true⟩] = .ok front ∧
      Wire.encode (⟨[255]⟩ : PcrSelection) = .ok counted ∧
      Field.encode [⟨.plain .u16, 4⟩] = .ok back ∧
      [1, 0, 0, 0, 3, 0, 1, 255, 0, 4] = front ++ (count ++ counted) ++ back ∧
      count.length = 4 ∧ ofBigEndian count = counted.length := by
  obtain ⟨hstructure, hsizes, hlists⟩ := sizes_agree
  have hheader : (Wire.layout CommandHeader).fixedSize = some headerSize :=
    hsizes (Wire.layout CommandHeader, some headerSize) List.mem_cons_self
  refine ⟨(hstructure PcrSelection ⟨[255]⟩).2.1.trans (by decide), hheader,
    ((hstructure CommandHeader {}).2.2 headerSize hheader).2 _ (by decide), ?_⟩
  exact (hlists
    [⟨.plain .flag, true⟩, ⟨.sizedPlain (Wire.layout PcrSelection), Wire.toValue ⟨[255]⟩⟩]
    [⟨.plain .u16, 4⟩] _ (by decide)).2 [⟨.plain .flag, true⟩] [⟨.plain .u16, 4⟩] _ _ rfl

end TrustedModule
