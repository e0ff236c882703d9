import TrustedModule.Proofs.Wire.Reading

/-!
# What a failed read leaves behind

A read that asks for its bytes once takes all of them or none, so the same bytes can be read again
after it failed. A sized read asks twice, for the count and for the bytes that are counted. If these
are missing, the count stays consumed, and the next read starts behind it.
-/

set_option autoImplicit false

namespace TrustedModule

namespace Buffer

/-- The read of `buffer` fails only for want of `count` bytes, and then leaves it as it was. -/
def FailsCleanly {α : Type} (read : BufferM α) (count : Nat) (buffer : Buffer) : Prop :=
  ∀ error after, read buffer = (.error error, after) →
    after = buffer ∧ buffer.remaining < count ∧ error = .underflow count buffer.remaining

variable {buffer : Buffer}

theorem failsCleanly_readBlock (count : Nat) : FailsCleanly (readBlock count) count buffer := by
  intro error after h
  by_cases hroom : buffer.remaining < count
  · rw [readBlock_of_lt hroom] at h
    cases h
    exact ⟨rfl, hroom, rfl⟩
  · rw [readBlock_of_le (Nat.le_of_not_lt hroom)] at h
    cases h

theorem FailsCleanly.map {α β : Type} {read : BufferM α} {count : Nat}
    (h : FailsCleanly read count buffer) (f : α → β) :
    FailsCleanly (do return f (← read)) count buffer := by
  intro error after hread
  rcases bind_eq_error hread with hfirst | ⟨a, middle, _, hpure⟩
  · exact h error after hfirst
  · cases hpure

theorem failsCleanly_readBytes (count : Nat) : FailsCleanly (readBytes count) count buffer :=
  (failsCleanly_readBlock count).map _

theorem failsCleanly_readU8 : FailsCleanly readU8 1 buffer := (failsCleanly_readBytes 1).map _

theorem failsCleanly_readU16 : FailsCleanly readU16 2 buffer := (failsCleanly_readBytes 2).map _

theorem failsCleanly_readU32 : FailsCleanly readU32 4 buffer := (failsCleanly_readBytes 4).map _

/-- A target that its read could not fill holds what it held. -/
theorem overwrite_of_failsCleanly {α : Type} {read : BufferM α} {count : Nat} {target : α}
    {error : Error} (h : FailsCleanly read count buffer)
    (hresult : (Filled.overwrite target read buffer).result = .error error) :
    Filled.overwrite target read buffer = ⟨target, .error error, buffer⟩ := by
  unfold Filled.overwrite at hresult ⊢
  split at hresult
  · cases hresult
  · rename_i other after hread
    cases hresult
    obtain ⟨rfl, _⟩ := h _ after hread
    rfl

/-- The four bytes of the count were there, and the cursor stands behind them, but `count` bytes are
not ahead of it. -/
structure StopsBehindCount (buffer after : Buffer) (error : Error) (count : UInt32) : Prop where
  room : 4 ≤ buffer.remaining
  count_eq : readU32 buffer = (.ok count, after)
  after_eq : after = buffer.advance 4
  short : after.remaining < count.toNat
  error_eq : error = .underflow count.toNat after.remaining

theorem readSized_eq_error {after : Buffer} {error : Error}
    (h : readSized buffer = (.error error, after)) :
    (after = buffer ∧ buffer.remaining < 4 ∧ error = .underflow 4 buffer.remaining) ∨
      ∃ count, StopsBehindCount buffer after error count := by
  rcases bind_eq_error h with hcount | ⟨count, middle, hcount, hbytes⟩
  · exact .inl (failsCleanly_readU32 error after hcount)
  · obtain ⟨rfl, hshort, herror⟩ := failsCleanly_readBytes _ _ _ hbytes
    have hroom : 4 ≤ buffer.remaining := by
      have htaken := (took_readU32 hcount).length
      rw [length_bigEndian] at htaken
      change 4 ≤ buffer.ahead.length
      omega
    obtain ⟨_, hread⟩ := takes_readU32 buffer hroom
    rw [hcount] at hread
    exact .inr ⟨count, hroom, hcount, congrArg Prod.snd hread, hshort, herror⟩

theorem advance_ne {count : Nat} (hpositive : 0 < count)
    (hroom : count ≤ buffer.remaining) : buffer.advance count ≠ buffer := by
  intro heq
  have hleft := remaining_advance buffer count
  rw [heq] at hleft
  omega

/-- A failed read leaves the buffer as it was, but for a sized read that got its count. A number or
a count of bytes is read whole or not at all, and a destination of the caller that cannot be filled
keeps its bytes. A sized read that fails on the four bytes of its count leaves the buffer as it was
as well; one that fails on the counted bytes leaves the cursor behind the count, over the same
contents. -/
theorem failed_reads (buffer : Buffer) :
    (FailsCleanly readU8 1 buffer ∧ FailsCleanly readU16 2 buffer ∧ FailsCleanly readU32 4 buffer ∧
      ∀ count, FailsCleanly (readBytes count) count buffer) ∧
    (∀ (size : Nat) (destination : Block size) (error : Error),
      ((Layout.block size).fill destination buffer).result = .error error →
        (Layout.block size).fill destination buffer = ⟨destination, .error error, buffer⟩) ∧
    ∀ (error : Error) (after : Buffer), readSized buffer = (.error error, after) →
      after.contents = buffer.contents ∧
      (after = buffer ↔ buffer.remaining < 4) ∧
      (buffer.remaining < 4 → error = .underflow 4 buffer.remaining) ∧
      (4 ≤ buffer.remaining → ∃ count, StopsBehindCount buffer after error count) := by
  refine ⟨⟨failsCleanly_readU8, failsCleanly_readU16, failsCleanly_readU32,
    failsCleanly_readBytes⟩, fun size destination error h =>
      overwrite_of_failsCleanly (failsCleanly_readBlock size) h, ?_⟩
  intro error after h
  rcases readSized_eq_error h with ⟨rfl, hshort, herror⟩ | ⟨count, hstops⟩
  · exact ⟨rfl, ⟨fun _ => hshort, fun _ => rfl⟩, fun _ => herror,
      fun hroom => absurd hshort (Nat.not_lt.mpr hroom)⟩
  · have hroom := hstops.room
    refine ⟨?_, ⟨fun heq => ?_, fun hshort => ?_⟩, fun hshort => ?_, fun _ => ⟨count, hstops⟩⟩
    · rw [hstops.after_eq, contents_advance]
    · exact absurd (hstops.after_eq.symm.trans heq) (advance_ne (by decide) hroom)
    · omega
    · omega

/-- One byte is no 16-bit number, two bytes do not fill three, and a count of 2 is consumed though
only one byte is behind it. -/
theorem failed_reads_short :
    readU16 ⟨[1], [2]⟩ = (.error (.underflow 2 1), ⟨[1], [2]⟩) ∧ (Buffer.mk [1] [2]).remaining < 2 ∧
    (Layout.block 3).fill (.zero 3) ⟨[], [1, 2]⟩ =
      ⟨.zero 3, .error (.underflow 3 2), ⟨[], [1, 2]⟩⟩ ∧
    ∃ count,
      StopsBehindCount ⟨[9], [0, 0, 0, 2, 7]⟩ ⟨[9, 0, 0, 0, 2], [7]⟩ (.underflow 2 1) count := by
  obtain ⟨⟨_, hword, _⟩, _, _⟩ := failed_reads ⟨[1], [2]⟩
  obtain ⟨_, hfill, _⟩ := failed_reads ⟨[], [1, 2]⟩
  obtain ⟨_, _, hsized⟩ := failed_reads ⟨[9], [0, 0, 0, 2, 7]⟩
  have hread : readU16 ⟨[1], [2]⟩ = (.error (.underflow 2 1), ⟨[1], [2]⟩) := rfl
  exact ⟨hread, (hword _ _ hread).2.1, hfill 3 (.zero 3) (.underflow 3 2) rfl,
    (hsized (.underflow 2 1) ⟨[9, 0, 0, 0, 2], [7]⟩ rfl).2.2.2 (by decide)⟩

/-- A sized read that failed cannot be made again: a count of 6 that is not covered is consumed, and
then the first counted bytes are taken for a count, and the read succeeds. -/
theorem readSized_loses_count :
    readSized (ofBytes [0, 0, 0, 6, 0, 0, 0, 1, 9]) =
      (.error (.underflow 6 5), ⟨[0, 0, 0, 6], [0, 0, 0, 1, 9]⟩) ∧
    readSized ⟨[0, 0, 0, 6], [0, 0, 0, 1, 9]⟩ =
      (.ok [9], ⟨[0, 0, 0, 6, 0, 0, 0, 1, 9], []⟩) ∧
    ¬ ∀ buffer error after, readSized buffer = (.error error, after) → after = buffer := by
  have hfails : readSized (ofBytes [0, 0, 0, 6, 0, 0, 0, 1, 9]) =
      (.error (.underflow 6 5), ⟨[0, 0, 0, 6], [0, 0, 0, 1, 9]⟩) := rfl
  refine ⟨hfails, rfl, fun hclean => ?_⟩
  exact absurd (hclean _ _ _ hfails) (by decide)

end Buffer

end TrustedModule
