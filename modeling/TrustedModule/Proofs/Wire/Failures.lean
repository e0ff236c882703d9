import TrustedModule.Proofs.Wire.RoundTrip

/-!
# How writing and reading fail

A writer fails on a list that has no layout or on a count that is too small for its data; a reader
fails on such a list, for want of bytes, or on a counted structure that leaves some of its bytes
unread. No other error comes out of either.
-/

set_option autoImplicit false

namespace TrustedModule

/-! ## Writing -/

theorem append_eq_error {first second : Except Error Bytes} {error : Error} :
    (do return (← first) ++ (← second)) = Except.error error ↔
      first = .error error ∨ ∃ a, first = .ok a ∧ second = .error error := by
  constructor
  · intro h
    rcases bind_eq_error.mp h with hfirst | ⟨a, ha, h⟩
    · exact .inl hfirst
    · rcases bind_eq_error.mp h with hsecond | ⟨b, _, h⟩
      · exact .inr ⟨a, ha, hsecond⟩
      · cases h
  · rintro (rfl | ⟨a, rfl, rfl⟩)
    · rfl
    · rfl

/-- A structure has no encoding only if some part of it is too long for its count. -/
theorem Layout.encode_eq_error :
    ∀ {layout : Layout} {value : layout.Value} {error : Error},
      layout.encode value = .error error → ∃ what, error = .overflow what
  | mask, value, _, h => by
    rw [encode_mask] at h
    split at h
    · cases h
    · cases h
      exact ⟨_, rfl⟩
  | sized, value, _, h => by
    rw [encode_sized] at h
    split at h
    · cases h
    · cases h
      exact ⟨_, rfl⟩
  | record _ fields, _, _, h => @encode_eq_error fields _ _ h
  | field _ _ head rest, (first, others), _, h => by
    rw [encode_field] at h
    rcases append_eq_error.mp h with hfirst | ⟨_, _, hothers⟩
    · exact @encode_eq_error head first _ hfirst
    · exact @encode_eq_error rest others _ hothers

theorem FieldKind.encode_eq_error {kind : FieldKind} {value : kind.Value} {error : Error}
    (h : kind.encode value = .error error) : ∃ what, error = .overflow what := by
  cases kind with
  | plain layout => exact @Layout.encode_eq_error layout _ _ h
  | sized => exact @Layout.encode_eq_error .sized _ _ h
  | sizedPlain layout =>
    rw [encode_sizedPlain] at h
    rcases bind_eq_error.mp h with hinner | ⟨bytes, _, h⟩
    · exact Layout.encode_eq_error hinner
    · split at h
      · cases h
      · cases h
        exact ⟨_, rfl⟩
  | remainder => cases h

namespace Field

theorem encodeEach_eq_error {fields : List Field} {error : Error}
    (h : encodeEach fields = .error error) : ∃ what, error = .overflow what := by
  induction fields with
  | nil => cases h
  | cons field fields ih =>
    rcases append_eq_error.mp h with hfirst | ⟨_, _, hothers⟩
    · exact FieldKind.encode_eq_error hfirst
    · exact ih hothers

/-- The verdict on the layout comes first; a list that has one fails on a count. -/
theorem encode_eq_error {fields : List Field} {error : Error} (h : encode fields = .error error) :
    (∃ fault, FieldKind.layoutFault? (fields.map kind) = some fault ∧ error = .layout fault) ∨
      FieldKind.layoutFault? (fields.map kind) = none ∧ ∃ what, error = .overflow what := by
  rw [encode_eq] at h
  cases hfault : FieldKind.layoutFault? (fields.map kind) with
  | none =>
    rw [hfault] at h
    exact .inr ⟨rfl, encodeEach_eq_error h⟩
  | some fault =>
    rw [hfault] at h
    cases h
    exact .inl ⟨fault, rfl, rfl⟩

end Field

/-! ## Reading -/

/-- What a reader can complain about: there are too few bytes, or they do not add up. -/
inductive Error.OfBody : Error → Prop
  | underflow (needed remaining : Nat) : OfBody (.underflow needed remaining)
  | layout (fault : LayoutFault) : OfBody (.layout fault)

theorem Error.OfBody.of_underflow {error : Error}
    (h : ∃ needed remaining, error = .underflow needed remaining) : error.OfBody := by
  obtain ⟨needed, remaining, rfl⟩ := h
  exact .underflow needed remaining

namespace Buffer

/-- The read fails for want of bytes only. -/
def Starves {α : Type} (read : BufferM α) : Prop :=
  ∀ buffer error after, read buffer = (.error error, after) →
    ∃ needed remaining, error = .underflow needed remaining

theorem starves_pure {α : Type} (a : α) : Starves (pure a) := by
  intro buffer error after h
  cases h

theorem Starves.bind {α β : Type} {first : BufferM α} {next : α → BufferM β}
    (hfirst : Starves first) (hnext : ∀ a, Starves (next a)) : Starves (first >>= next) := by
  intro buffer error after h
  rcases bind_eq_error h with hread | ⟨a, middle, _, hread⟩
  · exact hfirst buffer _ _ hread
  · exact hnext a middle _ _ hread

theorem starves_readBlock (count : Nat) : Starves (readBlock count) := by
  intro buffer error after h
  unfold readBlock at h
  split at h
  · cases h
  · cases h
    exact ⟨_, _, rfl⟩

theorem starves_readBytes (count : Nat) : Starves (readBytes count) :=
  (starves_readBlock count).bind fun _ => starves_pure _

theorem starves_readU8 : Starves readU8 := (starves_readBytes 1).bind fun _ => starves_pure _

theorem starves_readU16 : Starves readU16 := (starves_readBytes 2).bind fun _ => starves_pure _

theorem starves_readU32 : Starves readU32 := (starves_readBytes 4).bind fun _ => starves_pure _

theorem starves_readFlag : Starves readFlag := starves_readU8.bind fun _ => starves_pure _

theorem starves_readSized : Starves readSized := starves_readU32.bind fun _ => starves_readBytes _

theorem starves_readMask : Starves readMask := starves_readU16.bind fun _ => starves_readBytes _

end Buffer

open Buffer

theorem Filled.overwrite_eq_error {α : Type} {target : α} {read : BufferM α} {buffer : Buffer}
    {error : Error} (hread : Starves read)
    (h : (overwrite target read buffer).result = .error error) :
    ∃ needed remaining, error = .underflow needed remaining := by
  unfold overwrite at h
  split at h
  · cases h
  · rename_i other after hfailed
    cases h
    exact hread buffer _ after hfailed

/-- Of two targets in sequence the first that fails gives the error. -/
theorem Filled.andThen_eq_error {α β : Type} {first : Filled α} {next : β}
    {fill : β → Buffer → Filled β} {error : Error}
    (h : (first.andThen next fill).result = .error error) :
    first.result = .error error ∨ (fill next first.buffer).result = .error error := by
  unfold andThen at h
  split at h
  · exact .inl h
  · exact .inr h

/-- A structure is not read only for want of bytes. -/
theorem Layout.fill_eq_error :
    ∀ {layout : Layout} {target : layout.Value} {buffer : Buffer} {error : Error},
      (layout.fill target buffer).result = .error error →
        ∃ needed remaining, error = .underflow needed remaining
  | u8, _, _, _, h => Filled.overwrite_eq_error starves_readU8 h
  | u16, _, _, _, h => Filled.overwrite_eq_error starves_readU16 h
  | u32, _, _, _, h => Filled.overwrite_eq_error starves_readU32 h
  | flag, _, _, _, h => Filled.overwrite_eq_error starves_readFlag h
  | block size, _, _, _, h => Filled.overwrite_eq_error (starves_readBlock size) h
  | mask, _, _, _, h => Filled.overwrite_eq_error starves_readMask h
  | sized, _, _, _, h => Filled.overwrite_eq_error starves_readSized h
  | record _ fields, _, _, _, h => @fill_eq_error fields _ _ _ h
  | field _ _ head rest, (first, others), _, _, h => by
    rcases Filled.andThen_eq_error h with hfirst | hothers
    · exact @fill_eq_error head first _ _ hfirst
    · exact @fill_eq_error rest others _ _ hothers

namespace FieldKind

theorem fillSized_eq_error {layout : Layout} {target : layout.Value} {buffer : Buffer}
    {error : Error} (h : (fillSized layout target buffer).result = .error error) :
    error.OfBody := by
  unfold fillSized at h
  split at h
  · rename_i other after hread
    cases h
    exact .of_underflow (starves_readSized buffer _ after hread)
  · rename_i bytes after hread
    dsimp only at h
    split at h
    · rename_i other hinner
      cases h
      exact .of_underflow (Layout.fill_eq_error hinner)
    · split at h
      · cases h
      · cases h
        exact .layout _

theorem fill_eq_error {kind : FieldKind} {trailing : Nat} {target : kind.Value} {buffer : Buffer}
    {error : Error} (h : (kind.fill trailing target buffer).result = .error error) :
    error.OfBody := by
  cases kind with
  | plain layout => exact .of_underflow (@Layout.fill_eq_error layout _ _ _ h)
  | sized => exact .of_underflow (Filled.overwrite_eq_error starves_readSized h)
  | sizedPlain layout => exact fillSized_eq_error h
  | remainder =>
    simp only [fill, fillRemainder] at h
    split at h
    · cases h
      exact .underflow _ _
    · exact .of_underflow (Filled.overwrite_eq_error (starves_readBytes _) h)

theorem fillEach_eq_error {kinds : List FieldKind} {targets : Values kinds} {buffer : Buffer}
    {error : Error} (h : (fillEach kinds targets buffer).result = .error error) :
    error.OfBody := by
  induction kinds generalizing buffer with
  | nil => cases h
  | cons kind kinds ih =>
    obtain ⟨first, others⟩ := targets
    rcases Filled.andThen_eq_error h with hfirst | hothers
    · exact fill_eq_error hfirst
    · exact ih hothers

theorem fillAll_eq_error {kinds : List FieldKind} {targets : Values kinds} {buffer : Buffer}
    {error : Error} (h : (fillAll kinds targets buffer).result = .error error) :
    error.OfBody := by
  unfold fillAll at h
  split at h
  · cases h
    exact .layout _
  · exact fillEach_eq_error h

end FieldKind

end TrustedModule
