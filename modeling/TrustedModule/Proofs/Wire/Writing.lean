import TrustedModule.Proofs.BigEndian
import TrustedModule.Wire.Field

/-!
# What writers append

No writer looks at the buffer that it writes to: it has one result, and it appends one byte string,
wherever it starts. So the bytes of a structure are the bytes of its parts run together, and the
bytes of a field list are those of its fields.
-/

set_option autoImplicit false

namespace TrustedModule

namespace Buffer

/-- The result of a write and the bytes that it appends do not depend on the buffer. -/
def Appends (write : BufferM Unit) (result : Except Error Unit) (bytes : Bytes) : Prop :=
  ∀ buffer, write buffer = (result, buffer.append bytes)

@[simp] theorem append_nil (buffer : Buffer) : buffer.append [] = buffer := by
  simp [append]

@[simp] theorem append_append (buffer : Buffer) (a b : Bytes) :
    (buffer.append a).append b = buffer.append (a ++ b) := by
  simp [append]

@[simp] theorem contents_append_empty (bytes : Bytes) : (empty.append bytes).contents = bytes := by
  simp [empty, append, contents]

theorem bind_of_ok {α β : Type} {first : BufferM α} {next : α → BufferM β} {buffer after : Buffer}
    {a : α} (h : first buffer = (.ok a, after)) : (first >>= next) buffer = next a after := by
  simp only [bind, ExceptT.bind, ExceptT.mk, StateT.bind, h]
  rfl

theorem bind_of_error {α β : Type} {first : BufferM α} {next : α → BufferM β}
    {buffer after : Buffer} {error : Error} (h : first buffer = (.error error, after)) :
    (first >>= next) buffer = (.error error, after) := by
  simp only [bind, ExceptT.bind, ExceptT.mk, StateT.bind, h]
  rfl

theorem bind_eq_ok {α β : Type} {first : BufferM α} {next : α → BufferM β} {buffer after : Buffer}
    {b : β} (h : (first >>= next) buffer = (.ok b, after)) :
    ∃ a middle, first buffer = (.ok a, middle) ∧ next a middle = (.ok b, after) := by
  cases hfirst : first buffer with
  | mk result middle =>
    cases result with
    | error error =>
      rw [bind_of_error hfirst] at h
      cases h
    | ok a =>
      rw [bind_of_ok hfirst] at h
      exact ⟨a, middle, rfl, h⟩

theorem bind_eq_error {α β : Type} {first : BufferM α} {next : α → BufferM β}
    {buffer after : Buffer} {error : Error} (h : (first >>= next) buffer = (.error error, after)) :
    first buffer = (.error error, after) ∨
      ∃ a middle, first buffer = (.ok a, middle) ∧ next a middle = (.error error, after) := by
  cases hfirst : first buffer with
  | mk result middle =>
    cases result with
    | error other =>
      rw [bind_of_error hfirst] at h
      cases h
      exact .inl rfl
    | ok a =>
      rw [bind_of_ok hfirst] at h
      exact .inr ⟨a, middle, rfl, h⟩

theorem appends_writeBytes (bytes : Bytes) : Appends (writeBytes bytes) (.ok ()) bytes :=
  fun _ => rfl

theorem appends_pure : Appends (pure ()) (.ok ()) [] := by
  intro buffer
  rw [append_nil]
  rfl

theorem appends_throw (error : Error) : Appends (throw error) (.error error) [] := by
  intro buffer
  rw [append_nil]
  rfl

theorem Appends.andThen {first next : BufferM Unit} {result : Except Error Unit} {a b : Bytes}
    (hfirst : Appends first (.ok ()) a) (hnext : Appends next result b) :
    Appends (do first; next) result (a ++ b) := by
  intro buffer
  rw [bind_of_ok (hfirst buffer), hnext (buffer.append a), append_append]

theorem Appends.stop {first next : BufferM Unit} {error : Error} {a : Bytes}
    (hfirst : Appends first (.error error) a) : Appends (do first; next) (.error error) a :=
  fun buffer => bind_of_error (hfirst buffer)

/-- The bytes that a write leaves in an empty buffer, if it succeeds. -/
def output (write : BufferM Unit) : Except Error Bytes :=
  let (result, buffer) := write empty
  result.map fun () => buffer.contents

theorem Appends.output_eq {write : BufferM Unit} {result : Except Error Unit} {bytes : Bytes}
    (h : Appends write result bytes) : output write = result.map fun () => bytes := by
  simp only [output, h empty, contents_append_empty]

/-- Of two writes in sequence the second counts only if the first succeeds. -/
theorem output_andThen {first next : BufferM Unit}
    (hfirst : ∃ result bytes, Appends first result bytes)
    (hnext : ∃ result bytes, Appends next result bytes) :
    output (do first; next) = do return (← output first) ++ (← output next) := by
  obtain ⟨result, a, ha⟩ := hfirst
  obtain ⟨result', b, hb⟩ := hnext
  cases result with
  | error error =>
    rw [ha.output_eq, (Appends.stop ha).output_eq]
    rfl
  | ok _ =>
    rw [ha.output_eq, hb.output_eq, (ha.andThen hb).output_eq]
    cases result' with
    | error error => rfl
    | ok _ => rfl

theorem appends_of_output {write : BufferM Unit} {bytes : Bytes}
    (h : ∃ result bytes, Appends write result bytes) (houtput : output write = .ok bytes) :
    Appends write (.ok ()) bytes := by
  obtain ⟨result, appended, happends⟩ := h
  rw [happends.output_eq] at houtput
  cases result with
  | error error => cases houtput
  | ok _ =>
    cases houtput
    exact happends

end Buffer

/-! ## Structures -/

namespace Layout

open Buffer

theorem appends : ∀ (layout : Layout) (value : layout.Value),
    ∃ result bytes, Appends (layout.write value) result bytes
  | u8, value => ⟨_, _, appends_writeBytes [value]⟩
  | u16, value => ⟨_, _, appends_writeBytes (bigEndian 2 (UInt16.toNat value))⟩
  | u32, value => ⟨_, _, appends_writeBytes (bigEndian 4 (UInt32.toNat value))⟩
  | flag, value => ⟨_, _, appends_writeBytes [if value then 1 else 0]⟩
  | block _, value => ⟨_, _, appends_writeBytes value.bytes⟩
  | mask, value => by
    simp only [write, writeMask]
    split
    · exact ⟨_, _, appends_writeBytes _⟩
    · exact ⟨_, _, appends_throw _⟩
  | sized, value => by
    simp only [write, writeSized]
    split
    · exact ⟨_, _, appends_writeBytes _⟩
    · exact ⟨_, _, appends_throw _⟩
  | record _ fields, value => appends fields value
  | field _ _ head rest, (first, others) => by
    obtain ⟨result, a, ha⟩ := appends head first
    obtain ⟨result', b, hb⟩ := appends rest others
    cases result with
    | error error => exact ⟨_, _, ha.stop⟩
    | ok _ => exact ⟨_, _, ha.andThen hb⟩
  | done, () => ⟨_, _, appends_pure⟩

theorem encode_eq_output (layout : Layout) (value : layout.Value) :
    layout.encode value = output (layout.write value) := rfl

@[simp] theorem encode_u8 (value : UInt8) : encode u8 value = .ok [value] := rfl

@[simp] theorem encode_u16 (value : UInt16) : encode u16 value = .ok (bigEndian 2 value.toNat) :=
  rfl

@[simp] theorem encode_u32 (value : UInt32) : encode u32 value = .ok (bigEndian 4 value.toNat) :=
  rfl

@[simp] theorem encode_flag (value : Bool) :
    encode flag value = .ok [if value then 1 else 0] := rfl

@[simp] theorem encode_block {size : Nat} (value : Block size) :
    encode (block size) value = .ok value.bytes := rfl

theorem encode_mask (value : Bytes) :
    encode mask value =
      if value.length < 0x10000 then .ok (bigEndian 2 value.length ++ value)
      else .error (.overflow (.pcrMask value.length)) := by
  rw [encode_eq_output, write, writeMask]
  split
  · rw [(appends_writeBytes _).output_eq]
    rfl
  · rw [(appends_throw _).output_eq]
    rfl

theorem encode_sized (value : Bytes) :
    encode sized value =
      if value.length < 0x100000000 then .ok (bigEndian 4 value.length ++ value)
      else .error (.overflow (.sizedBytes value.length)) := by
  rw [encode_eq_output, write, writeSized]
  split
  · rw [(appends_writeBytes _).output_eq]
    rfl
  · rw [(appends_throw _).output_eq]
    rfl

@[simp] theorem encode_record (name : String) (fields : Layout) (value : fields.Value) :
    encode (record name fields) value = fields.encode value := rfl

@[simp] theorem encode_field (label : String) (shown : Bool) (head rest : Layout)
    (value : (field label shown head rest).Value) :
    encode (field label shown head rest) value =
      do return (← head.encode value.1) ++ (← rest.encode value.2) :=
  output_andThen (appends head value.1) (appends rest value.2)

@[simp] theorem encode_done : encode done () = .ok [] := rfl

theorem appends_of_encode {layout : Layout} {value : layout.Value} {bytes : Bytes}
    (h : layout.encode value = .ok bytes) : Appends (layout.write value) (.ok ()) bytes :=
  appends_of_output (appends layout value) h

/-- A static size is the length of every encoding, and every value has one. -/
theorem encode_of_fixedSize :
    ∀ {layout : Layout} {size : Nat}, layout.fixedSize = some size → ∀ value : layout.Value,
      ∃ bytes, layout.encode value = .ok bytes ∧ bytes.length = size
  | u8, _, h, value => by
    cases h
    exact ⟨_, encode_u8 value, rfl⟩
  | u16, _, h, value => by
    cases h
    exact ⟨_, encode_u16 value, length_bigEndian _ _⟩
  | u32, _, h, value => by
    cases h
    exact ⟨_, encode_u32 value, length_bigEndian _ _⟩
  | flag, _, h, value => by
    cases h
    exact ⟨_, encode_flag value, rfl⟩
  | block _, _, h, value => by
    cases h
    exact ⟨_, encode_block value, value.length_bytes⟩
  | record _ fields, _, h, value => @encode_of_fixedSize fields _ h value
  | field _ _ head rest, size, h, (first, others) => by
    obtain ⟨m, hm, h⟩ := Option.bind_eq_some_iff.mp h
    obtain ⟨n, hn, h⟩ := Option.bind_eq_some_iff.mp h
    obtain ⟨a, ha, halen⟩ := encode_of_fixedSize hm first
    obtain ⟨b, hb, hblen⟩ := encode_of_fixedSize hn others
    cases h
    refine ⟨a ++ b, ?_, by rw [List.length_append, halen, hblen]⟩
    rw [encode_field, ha, hb]
    rfl
  | done, _, h, () => by
    cases h
    exact ⟨_, encode_done, rfl⟩

theorem wireSize_eq (layout : Layout) (value : layout.Value) :
    layout.wireSize value = (layout.encode value).map List.length := by
  unfold wireSize
  split
  · rename_i size hsize
    obtain ⟨bytes, hbytes, hlength⟩ := encode_of_fixedSize hsize value
    rw [hbytes, ← hlength]
    rfl
  · rfl

end Layout

/-! ## Field lists -/

namespace FieldKind

open Buffer

/-- The bytes of one field. -/
def encode (kind : FieldKind) (value : kind.Value) : Except Error Bytes :=
  output (kind.write value)

theorem write_sizedPlain (layout : Layout) (value : layout.Value) :
    write (sizedPlain layout) value =
      match layout.encode value with
      | .error error => throw error
      | .ok bytes =>
        if bytes.length < 0x100000000 then do
          writeBytes (bigEndian 4 bytes.length)
          layout.write value
        else
          throw (.overflow (.sizedStructure bytes.length)) := by
  simp only [write, Layout.wireSize_eq]
  cases layout.encode value <;> rfl

theorem appends : ∀ (kind : FieldKind) (value : kind.Value),
    ∃ result bytes, Appends (kind.write value) result bytes
  | plain layout, value => layout.appends value
  | sized, value => Layout.appends .sized value
  | sizedPlain layout, value => by
    rw [write_sizedPlain]
    split
    · exact ⟨_, _, appends_throw _⟩
    · rename_i hbytes
      split
      · exact ⟨_, _, (appends_writeBytes _).andThen (Layout.appends_of_encode hbytes)⟩
      · exact ⟨_, _, appends_throw _⟩
  | remainder, value => ⟨_, _, appends_writeBytes value⟩

@[simp] theorem encode_plain (layout : Layout) (value : layout.Value) :
    encode (plain layout) value = layout.encode value := rfl

@[simp] theorem encode_sized (value : Bytes) : encode sized value = Layout.encode .sized value :=
  rfl

theorem encode_sizedPlain (layout : Layout) (value : layout.Value) :
    encode (sizedPlain layout) value =
      (layout.encode value).bind fun bytes =>
        if bytes.length < 0x100000000 then .ok (bigEndian 4 bytes.length ++ bytes)
        else .error (.overflow (.sizedStructure bytes.length)) := by
  rw [encode, write_sizedPlain]
  cases hbytes : layout.encode value with
  | error error => exact (appends_throw error).output_eq
  | ok bytes =>
    simp only [Except.bind]
    split
    · exact ((appends_writeBytes _).andThen (Layout.appends_of_encode hbytes)).output_eq
    · exact (appends_throw _).output_eq

@[simp] theorem encode_remainder (value : Bytes) : encode remainder value = .ok value := rfl

theorem encode_of_fixedSize {kind : FieldKind} {size : Nat} (h : kind.fixedSize = some size)
    (value : kind.Value) : ∃ bytes, kind.encode value = .ok bytes ∧ bytes.length = size := by
  cases kind with
  | plain layout => exact Layout.encode_of_fixedSize h value
  | sized | sizedPlain | remainder => cases h

end FieldKind

namespace Field

open Buffer

/-- The bytes of the fields run together, whatever their kinds. -/
def encodeEach : List Field → Except Error Bytes
  | [] => .ok []
  | field :: fields => do return (← field.kind.encode field.value) ++ (← encodeEach fields)

theorem appends_writeEach (fields : List Field) :
    ∃ result bytes, Appends (writeEach fields) result bytes := by
  induction fields with
  | nil => exact ⟨_, _, appends_pure⟩
  | cons field fields ih =>
    obtain ⟨result, a, ha⟩ := field.kind.appends field.value
    obtain ⟨result', b, hb⟩ := ih
    cases result with
    | error error => exact ⟨_, _, ha.stop⟩
    | ok _ => exact ⟨_, _, ha.andThen hb⟩

theorem output_writeEach (fields : List Field) : output (writeEach fields) = encodeEach fields := by
  induction fields with
  | nil => rfl
  | cons field fields ih =>
    rw [writeEach, encodeEach, ← ih]
    exact output_andThen (field.kind.appends field.value) (appends_writeEach fields)

theorem appends_writeAll (fields : List Field) :
    ∃ result bytes, Appends (writeAll fields) result bytes := by
  unfold writeAll
  split
  · exact ⟨_, _, appends_throw _⟩
  · exact appends_writeEach fields

theorem encode_eq (fields : List Field) :
    encode fields =
      match FieldKind.layoutFault? (fields.map kind) with
      | some fault => .error (.layout fault)
      | none => encodeEach fields := by
  change output (writeAll fields) = _
  unfold writeAll
  cases FieldKind.layoutFault? (fields.map kind) with
  | some fault => exact (appends_throw _).output_eq
  | none => exact output_writeEach fields

/-- A list has an encoding if it can be laid out and each of its fields has one. -/
theorem encode_eq_ok {fields : List Field} {bytes : Bytes} :
    encode fields = .ok bytes ↔
      FieldKind.layoutFault? (fields.map kind) = none ∧ encodeEach fields = .ok bytes := by
  rw [encode_eq]
  cases FieldKind.layoutFault? (fields.map kind) with
  | none => simp
  | some fault => simp

theorem encodeEach_append (fields others : List Field) :
    encodeEach (fields ++ others) =
      do return (← encodeEach fields) ++ (← encodeEach others) := by
  induction fields with
  | nil =>
    cases h : encodeEach others <;> simp [encodeEach, h, bind, Except.bind, pure, Except.pure]
  | cons field fields ih =>
    rw [List.cons_append, encodeEach, encodeEach, ih]
    cases field.kind.encode field.value with
    | error error => rfl
    | ok a =>
      cases encodeEach fields with
      | error error => rfl
      | ok b =>
        cases encodeEach others with
        | error error => rfl
        | ok c => simp [bind, Except.bind, pure, Except.pure]

end Field

end TrustedModule
