import TrustedModule.Proofs.Wire.Failures

/-!
# Verdicts on layouts

Whether a list can be laid out depends on its kinds alone: no counted field beside a remainder, one
remainder at most, and only static sizes behind it. A writer and a reader come to one verdict with
one wording, and come to it before anything else. In a list that passes, a writer has nothing to say
about the layout any more, and a reader only where a counted structure does not use up its bytes.
-/

set_option autoImplicit false

namespace TrustedModule

namespace FieldKind

/-- What cannot stand in one list, and what is said of it. -/
inductive Clash (kinds : List FieldKind) : LayoutFault → Prop where
  /-- A count in front of some data, and a remainder. -/
  | mixed {counted : FieldKind} : counted ∈ kinds →
      (counted = .sized ∨ ∃ layout, counted = .sizedPlain layout) → .remainder ∈ kinds →
      Clash kinds .prefixedBesideRemainder
  | repeated : 1 < kinds.count .remainder → Clash kinds .secondRemainder
  /-- A field behind a remainder, whose size is not static. -/
  | unlocated {before after : List FieldKind} {kind : FieldKind} :
      kinds = before ++ .remainder :: after → kind ∈ after → kind.fixedSize = none →
      Clash kinds .variableAfterRemainder

section Verdict

variable {kinds : List FieldKind} {fault : LayoutFault}

theorem policy_eq_prefixed {kind : FieldKind} :
    kind.policy = .prefixed ↔ kind = .sized ∨ ∃ layout, kind = .sizedPlain layout := by
  cases kind <;> simp [policy]

theorem countP_remainder (kinds : List FieldKind) :
    kinds.countP (·.policy == .remainder) = kinds.count .remainder := by
  apply List.countP_congr
  intro kind _
  simpa using policy_eq_remainder

/-- The list falls apart at its first remainder, if it has one. -/
theorem split_remainder (h : (kinds.dropWhile (·.policy != .remainder)).tail ≠ []) :
    ∃ before, kinds =
      before ++ .remainder :: (kinds.dropWhile (·.policy != .remainder)).tail := by
  refine ⟨kinds.takeWhile (·.policy != .remainder), ?_⟩
  have hnonempty : kinds.dropWhile (·.policy != .remainder) ≠ [] := by
    intro hnil
    rw [hnil] at h
    exact h rfl
  have hhead := List.head_dropWhile_not (fun kind : FieldKind => kind.policy != .remainder)
    hnonempty
  have hremainder : (kinds.dropWhile (·.policy != .remainder)).head hnonempty = .remainder :=
    policy_eq_remainder.mp (by simpa using hhead)
  rw [← hremainder, List.cons_head_tail, List.takeWhile_append_dropWhile]

/-- What the verdict says of a list is true of it. -/
theorem clash_of_layoutFault? (h : layoutFault? kinds = some fault) : Clash kinds fault := by
  unfold layoutFault? at h
  dsimp only at h
  rw [countP_remainder] at h
  split at h
  · rename_i hmixed
    cases h
    obtain ⟨hany, hpositive⟩ := Bool.and_eq_true_iff.mp hmixed
    obtain ⟨counted, hmem, hpolicy⟩ := List.any_eq_true.mp hany
    exact .mixed hmem (policy_eq_prefixed.mp (by simpa using hpolicy))
      (List.count_pos_iff.mp (by simpa using hpositive))
  · split at h
    · rename_i hsecond
      cases h
      exact .repeated hsecond
    · split at h
      · rename_i hvariable
        cases h
        obtain ⟨kind, hmem, hnone⟩ := List.any_eq_true.mp hvariable
        obtain ⟨before, hsplit⟩ := split_remainder (List.ne_nil_of_mem hmem)
        exact .unlocated hsplit hmem (Option.isNone_iff_eq_none.mp hnone)
      · cases h

/-- More fields on either side do not resolve a clash. -/
theorem Clash.widen (h : Clash kinds fault) (front back : List FieldKind) :
    Clash (front ++ kinds ++ back) fault := by
  cases h with
  | mixed hmem hcounted hremainder =>
    exact .mixed (by simp [hmem]) hcounted (by simp [hremainder])
  | repeated hsecond =>
    apply Clash.repeated
    rw [List.count_append, List.count_append]
    omega
  | @unlocated before after kind hsplit hmem hnone =>
    have hwide : front ++ kinds ++ back =
        front ++ before ++ .remainder :: (after ++ back) := by
      rw [hsplit]
      simp
    exact .unlocated hwide (List.mem_append_left back hmem) hnone

/-- A list that can be laid out has no clash. -/
theorem not_clash (h : layoutFault? kinds = none) : ¬ Clash kinds fault := by
  obtain ⟨hmixed, hcount, _⟩ := layoutFault?_eq_none.mp h
  rw [countP_remainder] at hmixed hcount
  intro hclash
  cases hclash with
  | mixed hmem hcounted hremainder =>
    refine hmixed (Bool.and_eq_true_iff.mpr ⟨List.any_eq_true.mpr ⟨_, hmem, ?_⟩, ?_⟩)
    · simpa using policy_eq_prefixed.mpr hcounted
    · simpa using hremainder
  | repeated hsecond => omega
  | unlocated hsplit hmem hnone =>
    subst hsplit
    exact (around_remainder h).2 _ hmem hnone

theorem exists_layoutFault? :
    (∃ fault, layoutFault? kinds = some fault) ↔ ∃ fault, Clash kinds fault := by
  constructor
  · rintro ⟨fault, hfault⟩
    exact ⟨fault, clash_of_layoutFault? hfault⟩
  · rintro ⟨fault, hclash⟩
    apply Option.ne_none_iff_exists'.mp
    exact fun hnone => not_clash hnone hclash

theorem layoutFault?_of_not_clash (h : ∀ fault, ¬ Clash kinds fault) :
    layoutFault? kinds = none := by
  cases hfault : layoutFault? kinds with
  | none => rfl
  | some fault => exact absurd (clash_of_layoutFault? hfault) (h fault)

/-- Every part of a list that can be laid out can be laid out. -/
theorem layoutFault?_of_append {others : List FieldKind}
    (h : layoutFault? (kinds ++ others) = none) :
    layoutFault? kinds = none ∧ layoutFault? others = none := by
  constructor
  · refine layoutFault?_of_not_clash fun fault hclash => ?_
    have hwide := hclash.widen [] others
    rw [List.nil_append] at hwide
    exact not_clash h hwide
  · refine layoutFault?_of_not_clash fun fault hclash => ?_
    have hwide := hclash.widen kinds []
    rw [List.append_nil] at hwide
    exact not_clash h hwide

end Verdict

/-! ## Bytes left unread -/

/-- The counted bytes of a structure are all there, and it is read from fewer of them. -/
def Overfull (layout : Layout) (target : layout.Value) (buffer : Buffer) (left declared : Nat) :
    Prop :=
  ∃ bytes after value rest, Buffer.readSized buffer = (.ok bytes, after) ∧
    layout.fill target (Buffer.ofBytes bytes) = ⟨value, .ok (), rest⟩ ∧
    left = rest.remaining ∧ left ≠ 0 ∧ declared = bytes.length

/-- The reader comes to a counted structure that is read from fewer bytes than were counted. -/
inductive LeavesUnread :
    (kinds : List FieldKind) → Values kinds → Buffer → (left declared : Nat) → Prop where
  | here {layout : Layout} {kinds : List FieldKind} {target : layout.Value} {others : Values kinds}
      {buffer : Buffer} {left declared : Nat} :
      Overfull layout target buffer left declared →
      LeavesUnread (.sizedPlain layout :: kinds) (target, others) buffer left declared
  | later {kind : FieldKind} {kinds : List FieldKind} {target value : kind.Value}
      {others : Values kinds} {buffer middle : Buffer} {left declared : Nat} :
      kind.fill (trailingSize kinds) target buffer = ⟨value, .ok (), middle⟩ →
      LeavesUnread kinds others middle left declared →
      LeavesUnread (kind :: kinds) (target, others) buffer left declared

section Unread

variable {fault : LayoutFault}

theorem ne_layout {error : Error} (h : ∃ needed remaining, error = .underflow needed remaining) :
    error ≠ .layout fault := by
  obtain ⟨needed, remaining, rfl⟩ := h
  exact nofun

theorem fillSized_eq_layout {layout : Layout} {target : layout.Value} {buffer : Buffer} :
    (fillSized layout target buffer).result = .error (.layout fault) ↔
      ∃ left declared, fault = .unreadBytes left declared ∧
        Overfull layout target buffer left declared := by
  constructor
  · intro h
    unfold fillSized at h
    split at h
    · rename_i error after hread
      cases h
      exact absurd rfl (ne_layout (Buffer.starves_readSized buffer _ after hread))
    · rename_i bytes after hread
      cases hinner : layout.fill target (Buffer.ofBytes bytes) with
      | mk value result rest =>
        rw [hinner] at h
        cases result with
        | error error =>
          cases h
          exact absurd rfl (ne_layout (Layout.fill_eq_error (congrArg Filled.result hinner)))
        | ok _ =>
          dsimp only at h
          split at h
          · cases h
          · rename_i hleft
            cases h
            exact ⟨_, _, rfl, bytes, after, value, rest, hread, hinner, rfl, hleft, rfl⟩
  · rintro ⟨left, declared, rfl, bytes, after, value, rest, hread, hinner, rfl, hleft, rfl⟩
    simp only [fillSized, hread, hinner, if_neg hleft]

/-- Only a counted structure has its layout complained of while it is read. -/
theorem fill_eq_layout {kind : FieldKind} {trailing : Nat} {target : kind.Value} {buffer : Buffer}
    (h : (kind.fill trailing target buffer).result = .error (.layout fault)) :
    ∃ layout, kind = .sizedPlain layout := by
  cases kind with
  | plain layout => exact absurd rfl (ne_layout (@Layout.fill_eq_error layout _ _ _ h))
  | sized => exact absurd rfl (ne_layout (@Layout.fill_eq_error .sized _ _ _ h))
  | sizedPlain layout => exact ⟨layout, rfl⟩
  | remainder =>
    simp only [fill, fillRemainder] at h
    split at h
    · cases h
    · exact absurd rfl (ne_layout (Filled.overwrite_eq_error (Buffer.starves_readBytes _) h))

/-- While a list is read, the only complaint about its layout is of bytes that are left unread. -/
theorem fillEach_eq_layout {kinds : List FieldKind} {targets : Values kinds} {buffer : Buffer} :
    (fillEach kinds targets buffer).result = .error (.layout fault) ↔
      ∃ left declared, fault = .unreadBytes left declared ∧
        LeavesUnread kinds targets buffer left declared := by
  constructor
  · intro h
    induction kinds generalizing buffer with
    | nil => cases h
    | cons kind kinds ih =>
      obtain ⟨target, others⟩ := targets
      cases hfirst : kind.fill (trailingSize kinds) target buffer with
      | mk value result middle =>
        cases result with
        | error error =>
          simp only [fillEach, hfirst, Filled.andThen] at h
          cases h
          obtain ⟨layout, rfl⟩ := fill_eq_layout (congrArg Filled.result hfirst)
          obtain ⟨left, declared, rfl, hoverfull⟩ :=
            fillSized_eq_layout.mp (congrArg Filled.result hfirst)
          exact ⟨left, declared, rfl, .here hoverfull⟩
        | ok _ =>
          simp only [fillEach, hfirst, Filled.andThen] at h
          obtain ⟨left, declared, rfl, hlater⟩ := ih h
          exact ⟨left, declared, rfl, .later hfirst hlater⟩
  · rintro ⟨left, declared, rfl, hunread⟩
    induction hunread with
    | here hoverfull =>
      have hfirst := fillSized_eq_layout.mpr ⟨_, _, rfl, hoverfull⟩
      simp only [fillEach, fill, Filled.andThen, hfirst, Filled.map]
    | later hfirst _ ih =>
      simp only [fillEach, hfirst, Filled.andThen]
      exact ih

end Unread

end FieldKind

namespace Field

open FieldKind

/-- A writer complains of the layout if the verdict does, and before it writes anything. -/
theorem writeAll_eq_layout {fields : List Field} {fault : LayoutFault} {buffer after : Buffer} :
    writeAll fields buffer = (.error (.layout fault), after) ↔
      layoutFault? (fields.map kind) = some fault ∧ buffer = after := by
  cases hfault : layoutFault? (fields.map kind) with
  | none =>
    simp only [writeAll, hfault, reduceCtorEq, false_and, iff_false]
    intro hwrite
    obtain ⟨result, bytes, happends⟩ := appends_writeEach fields
    rw [happends buffer] at hwrite
    obtain ⟨rfl, _⟩ := Prod.mk.inj hwrite
    -- the only other error of a writer is a count that is too small
    have houtput := happends.output_eq
    rw [output_writeEach] at houtput
    obtain ⟨what, hwhat⟩ := encodeEach_eq_error houtput
    cases hwhat
  | some verdict =>
    have hwrite : writeAll fields buffer = (.error (.layout verdict), buffer) := by
      rw [writeAll, hfault]
      rfl
    rw [hwrite]
    constructor
    · intro h
      obtain ⟨hresult, rfl⟩ := Prod.mk.inj h
      cases hresult
      exact ⟨rfl, rfl⟩
    · rintro ⟨hsame, rfl⟩
      cases hsame
      rfl

/-- Layout verdicts agree and come first. Of every list: a writer complains of the layout if and
only if two things in the list clash. Then the writer and the reader make the same complaint, about
a clash that the list has, with the buffer and the targets as they were, whatever these are. And in
a list without a clash the only complaint about a layout that a reader makes is of a counted
structure that is read from fewer bytes than were counted. -/
theorem verdicts_agree (fields : List Field) :
    (∀ buffer, (∃ fault after, writeAll fields buffer = (.error (.layout fault), after)) ↔
      ∃ fault, Clash (fields.map kind) fault) ∧
    ((∃ fault, Clash (fields.map kind) fault) →
      ∃ fault, Clash (fields.map kind) fault ∧
        ∀ buffer targets other, writeAll fields buffer = (.error (.layout fault), buffer) ∧
          fillAll (fields.map kind) targets other = ⟨targets, .error (.layout fault), other⟩) ∧
    ((∀ fault, ¬ Clash (fields.map kind) fault) →
      ∀ targets buffer fault,
        (fillAll (fields.map kind) targets buffer).result = .error (.layout fault) ↔
          ∃ left declared, fault = .unreadBytes left declared ∧
            LeavesUnread (fields.map kind) targets buffer left declared) := by
  refine ⟨fun buffer => ?_, fun hclash => ?_, fun hclash targets buffer fault => ?_⟩
  · rw [← exists_layoutFault?]
    constructor
    · rintro ⟨fault, after, hwrite⟩
      exact ⟨fault, (writeAll_eq_layout.mp hwrite).1⟩
    · rintro ⟨fault, hfault⟩
      exact ⟨fault, buffer, writeAll_eq_layout.mpr ⟨hfault, rfl⟩⟩
  · obtain ⟨fault, hfault⟩ := exists_layoutFault?.mpr hclash
    refine ⟨fault, clash_of_layoutFault? hfault, fun buffer targets other => ?_⟩
    exact ⟨writeAll_eq_layout.mpr ⟨hfault, rfl⟩, by simp only [fillAll, hfault]⟩
  · simp only [fillAll, layoutFault?_of_not_clash hclash]
    exact fillEach_eq_layout

/-- A counted selection with one byte more than it takes, in a list without a clash; and a list with
a count and a remainder. -/
theorem verdicts_agree_selections :
    ((fillAll [.sizedPlain (Wire.layout PcrSelection)] (([], ()), ())
        ⟨[5], [0, 0, 0, 4, 0, 1, 255, 9]⟩).result = .error (.layout (.unreadBytes 1 4)) ↔
      ∃ left declared, LayoutFault.unreadBytes 1 4 = .unreadBytes left declared ∧
        LeavesUnread [.sizedPlain (Wire.layout PcrSelection)] (([], ()), ())
          ⟨[5], [0, 0, 0, 4, 0, 1, 255, 9]⟩ left declared) ∧
    ∃ fault, Clash [.sized, .remainder] fault ∧
      ∀ buffer targets other,
        writeAll [.sized [7], .remainder [8]] buffer = (.error (.layout fault), buffer) ∧
          fillAll [.sized, .remainder] targets other =
            ⟨targets, .error (.layout fault), other⟩ := by
  constructor
  · exact (verdicts_agree [.sizedOfWire (⟨[255]⟩ : PcrSelection)]).2.2
      (fun _ => not_clash rfl) (([], ()), ()) ⟨[5], [0, 0, 0, 4, 0, 1, 255, 9]⟩ _
  · exact (verdicts_agree [.sized [7], .remainder [8]]).2.1
      ⟨_, @clash_of_layoutFault? [.sized, .remainder] .prefixedBesideRemainder rfl⟩

end Field

end TrustedModule
