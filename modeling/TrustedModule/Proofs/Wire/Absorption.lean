import TrustedModule.Proofs.Wire.Reading

/-!
# What a remainder absorbs

Nothing on the wire tells how long a remainder is: it takes what the targets before it have left,
less the static sizes of the targets behind it. If that much is left, the remainder and everything
behind it is read and the buffer is used up; if it is not, the remainder fails before it takes
anything. So the last thing that can go wrong is the remainder itself.
-/

set_option autoImplicit false

namespace TrustedModule

theorem Buffer.Took.contents_eq {before after : Buffer} {taken : Bytes}
    (h : Took before after taken) :
    after.contents = before.contents := by
  rw [contents, contents, h.1, h.2, List.append_assoc]

theorem Buffer.advance_all {buffer : Buffer} {count : Nat} (h : count = buffer.remaining) :
    buffer.advance count = ⟨buffer.contents, []⟩ := by
  subst h
  simp [advance, remaining, contents]

namespace FieldKind

open Buffer Filled

/-! ## Lists run together -/

/-- The targets of one list in front of those of another. -/
def Values.append : {kinds others : List FieldKind} →
    Values kinds → Values others → Values (kinds ++ others)
  | [], _, (), more => more
  | _ :: _, _, (first, rest), more => (first, append rest more)

/-- Only a remainder minds what comes behind it. -/
theorem fill_of_ne_remainder {kind : FieldKind} (h : kind ≠ .remainder) (trailing trailing' : Nat) :
    kind.fill trailing = kind.fill trailing' := by
  cases kind with
  | plain _ | sized | sizedPlain _ => rfl
  | remainder => exact absurd rfl h

/-- The second list is read from where the first ends, if all of the first was read. -/
theorem fillEach_append {kinds others : List FieldKind} (hkinds : ∀ kind ∈ kinds, kind ≠ .remainder)
    (targets : Values kinds) (more : Values others) (buffer : Buffer) :
    fillEach (kinds ++ others) (targets.append more) buffer =
      ((fillEach kinds targets buffer).andThen more (fillEach others)).map
        fun (values : Values kinds × Values others) => values.1.append values.2 := by
  induction kinds generalizing buffer with
  | nil => rfl
  | cons kind kinds ih =>
    obtain ⟨first, rest⟩ := targets
    have hkind := fill_of_ne_remainder (hkinds kind (List.mem_cons_self ..))
      (trailingSize (kinds ++ others)) (trailingSize kinds)
    change (kind.fill (trailingSize (kinds ++ others)) first buffer).andThen (rest.append more)
        (fillEach (kinds ++ others)) =
      (((kind.fill (trailingSize kinds) first buffer).andThen rest (fillEach kinds)).andThen more
        (fillEach others)).map
          fun (values : Values (kind :: kinds) × Values others) => values.1.append values.2
    rw [hkind]
    cases hfirst : kind.fill (trailingSize kinds) first buffer with
    | mk value result middle =>
      cases result with
      | error error => rfl
      | ok _ =>
        simp only [andThen, ih (fun other hmem => hkinds other (List.mem_cons_of_mem _ hmem)) rest
          middle]
        cases hrest : fillEach kinds rest middle with
        | mk values result last => cases result <;> rfl

/-! ## Targets of static size -/

theorem fill_of_fixedSize {kind : FieldKind} {size : Nat} {buffer : Buffer}
    (hsize : kind.fixedSize = some size) (trailing : Nat) (target : kind.Value)
    (hroom : size ≤ buffer.remaining) :
    ∃ value, kind.fill trailing target buffer = ⟨value, .ok (), buffer.advance size⟩ := by
  cases kind with
  | plain layout => exact Layout.fill_of_fixedSize hsize target hroom
  | sized | sizedPlain _ | remainder => cases hsize

/-- Targets of static size are read wherever all their bytes are ahead. -/
theorem fillEach_of_fixed {kinds : List FieldKind} {buffer : Buffer}
    (hfixed : ∀ kind ∈ kinds, kind.fixedSize ≠ none) (targets : Values kinds)
    (hroom : trailingSize kinds ≤ buffer.remaining) :
    ∃ values, fillEach kinds targets buffer =
      ⟨values, .ok (), buffer.advance (trailingSize kinds)⟩ := by
  induction kinds generalizing buffer with
  | nil => exact ⟨(), by simp [fillEach, trailingSize, advance]⟩
  | cons kind kinds ih =>
    obtain ⟨first, rest⟩ := targets
    obtain ⟨size, hsize⟩ := Option.ne_none_iff_exists'.mp (hfixed kind (List.mem_cons_self ..))
    have htotal : trailingSize (kind :: kinds) = size + trailingSize kinds := by
      simp [trailingSize, hsize]
    rw [htotal] at hroom ⊢
    obtain ⟨value, hvalue⟩ := fill_of_fixedSize hsize (trailingSize kinds) first
      (Nat.le_trans (Nat.le_add_right ..) hroom)
    have hleft : trailingSize kinds ≤ (buffer.advance size).remaining := by
      rw [remaining_advance]
      omega
    obtain ⟨values, hvalues⟩ := ih (fun other hmem => hfixed other (List.mem_cons_of_mem _ hmem))
      rest hleft
    refine ⟨(value, values), ?_⟩
    simp only [fillEach, hvalue, andThen, hvalues, Filled.map, advance_advance]

/-! ## The remainder -/

theorem fillRemainder_of_lt {trailing : Nat} {buffer : Buffer} (h : buffer.remaining < trailing)
    (target : Bytes) :
    fillRemainder trailing target buffer =
      ⟨target, .error (.underflow trailing buffer.remaining), buffer⟩ :=
  if_pos h

theorem fillRemainder_of_le {trailing : Nat} {buffer : Buffer} (h : trailing ≤ buffer.remaining)
    (target : Bytes) :
    fillRemainder trailing target buffer =
      ⟨buffer.ahead.take (buffer.remaining - trailing), .ok (),
        buffer.advance (buffer.remaining - trailing)⟩ := by
  have hle : buffer.remaining - trailing ≤ buffer.ahead.length := Nat.sub_le ..
  have hread : readBytes (buffer.remaining - trailing) buffer =
      (.ok (buffer.ahead.take (buffer.remaining - trailing)),
        buffer.advance (buffer.remaining - trailing)) := bind_of_ok (readBlock_of_le hle)
  rw [fillRemainder, if_neg (Nat.not_lt.mpr h), overwrite, hread]

/-- A remainder and targets of static size behind it, where these have room: the remainder takes
what is before their bytes, and they are read from the last ones. -/
theorem fillEach_remainder {kinds : List FieldKind} {buffer : Buffer}
    (hfixed : ∀ kind ∈ kinds, kind.fixedSize ≠ none) (held : Bytes) (targets : Values kinds)
    (hroom : trailingSize kinds ≤ buffer.remaining) :
    ∃ taken last values, buffer.ahead = taken ++ last ∧ last.length = trailingSize kinds ∧
      fillEach kinds targets (ofBytes last) = ⟨values, .ok (), ⟨last, []⟩⟩ ∧
      fillEach (.remainder :: kinds) (held, targets) buffer =
        ⟨(taken, values), .ok (), ⟨buffer.contents, []⟩⟩ := by
  let count := buffer.remaining - trailingSize kinds
  have hlast : (buffer.ahead.drop count).length = trailingSize kinds := by
    rw [List.length_drop]
    change buffer.remaining - (buffer.remaining - trailingSize kinds) = trailingSize kinds
    omega
  obtain ⟨values, hvalues⟩ := fillEach_of_fixed hfixed targets
    (show trailingSize kinds ≤ (ofBytes (buffer.ahead.drop count)).remaining from hlast.ge)
  rw [advance_all (show trailingSize kinds = (ofBytes (buffer.ahead.drop count)).remaining from
    hlast.symm)] at hvalues
  obtain ⟨values', hvalues'⟩ := fillEach_of_fixed hfixed targets
    (show trailingSize kinds ≤ (buffer.advance count).remaining from hlast.ge)
  -- where the remainder stops, the same bytes are ahead
  have hagree := uniform_fillEach kinds targets targets (buffer.advance count)
    (ofBytes (buffer.ahead.drop count)) rfl
  have hsame : values' = values := by
    have htarget := hagree.target (by rw [hvalues'])
    rwa [hvalues, hvalues'] at htarget
  refine ⟨buffer.ahead.take count, _, values, (List.take_append_drop ..).symm, hlast, hvalues, ?_⟩
  have hall : (buffer.advance count).advance (trailingSize kinds) = ⟨buffer.contents, []⟩ := by
    rw [advance_advance]
    exact advance_all (Nat.sub_add_cancel hroom)
  simp only [fillEach, fill, fillRemainder_of_le hroom, andThen]
  change ((fillEach kinds targets (buffer.advance count)).map _) = _
  rw [hvalues', hall, hsame]
  rfl

/-- A remainder takes exactly what is left over. Read a list that can be laid out, with targets
before its remainder and targets behind it, from any place in any buffer. If the targets before the
remainder fail, so does the whole; if they leave less than the static sizes of those behind it, the
remainder fails, with both numbers; and neither the remainder nor a later target is touched then.
Otherwise all of the list is read: the remainder takes what is before the last bytes, the targets
behind it are what these last bytes are read as, and the cursor is at the end of the buffer. -/
theorem fillAll_absorbs {before after : List FieldKind}
    (hlayout : layoutFault? (before ++ .remainder :: after) = none) {earlier read : Values before}
    {result : Except Error Unit} {buffer middle : Buffer}
    (hbefore : fillAll before earlier buffer = ⟨read, result, middle⟩) (held : Bytes)
    (later : Values after) :
    let whole := fillAll (before ++ .remainder :: after) (earlier.append (held, later)) buffer
    (∀ error, result = .error error → whole = ⟨read.append (held, later), .error error, middle⟩) ∧
    (result = .ok () → middle.remaining < trailingSize after →
      whole = ⟨read.append (held, later),
        .error (.underflow (trailingSize after) middle.remaining), middle⟩) ∧
    (result = .ok () → trailingSize after ≤ middle.remaining →
      ∃ taken last values, middle.ahead = taken ++ last ∧ last.length = trailingSize after ∧
        fillAll after later (ofBytes last) = ⟨values, .ok (), ⟨last, []⟩⟩ ∧
        whole = ⟨read.append (taken, values), .ok (), ⟨buffer.contents, []⟩⟩) := by
  obtain ⟨hkinds, hfixed⟩ := around_remainder hlayout
  have hfirst : fillEach before earlier buffer = ⟨read, result, middle⟩ := by
    rw [← hbefore, fillAll,
      layoutFault?_of_no_remainder fun kind hmem => mt policy_eq_remainder.mp (hkinds kind hmem)]
  have hwhole : fillAll (before ++ .remainder :: after) (earlier.append (held, later)) buffer =
      ((Filled.mk read result middle).andThen (held, later) (fillEach (.remainder :: after))).map
        fun (values : Values before × Values (.remainder :: after)) =>
          values.1.append values.2 := by
    rw [← hfirst, fillAll, hlayout]
    exact @fillEach_append before (.remainder :: after) hkinds earlier (held, later) buffer
  intro whole
  refine ⟨?_, ?_, ?_⟩
  · rintro error rfl
    exact hwhole
  · rintro rfl hshort
    refine hwhole.trans ?_
    simp only [andThen, fillEach, fill, fillRemainder_of_lt hshort, Filled.map]
  · rintro rfl hroom
    obtain ⟨taken, last, values, hahead, hlength, hlast, hrest⟩ :=
      fillEach_remainder hfixed held later hroom
    refine ⟨taken, last, values, hahead, hlength, ?_, ?_⟩
    · rw [fillAll, layoutFault?_of_no_remainder, hlast]
      intro kind hmem hpolicy
      rw [policy_eq_remainder.mp hpolicy] at hmem
      exact hfixed _ hmem rfl
    · have hcontents : middle.contents = buffer.contents := by
        obtain ⟨bytes, htook, _⟩ :=
          (uniform_fillEach before earlier earlier buffer buffer rfl).taken
        rw [hfirst] at htook
        exact htook.contents_eq
      refine hwhole.trans ?_
      simp only [andThen, hrest, Filled.map, hcontents]

/-- A selection, a remainder, a flag and a number: two bytes are left over for the remainder, or the
three bytes of the last two are not there. -/
theorem fillAll_absorbs_around :
    (∃ taken last values, [8, 9, 1, 0, 4] = taken ++ last ∧ last.length = 3 ∧
      fillAll [.plain .flag, .plain .u16] (false, 0, ()) (ofBytes last) =
        ⟨values, .ok (), ⟨last, []⟩⟩ ∧
      fillAll [.ofWire PcrSelection, .remainder, .plain .flag, .plain .u16]
          (([], ()), [5], false, 0, ()) ⟨[6], [0, 1, 255, 8, 9, 1, 0, 4]⟩ =
        ⟨(([255], ()), taken, values), .ok (), ⟨[6, 0, 1, 255, 8, 9, 1, 0, 4], []⟩⟩) ∧
    fillAll [.ofWire PcrSelection, .remainder, .plain .flag, .plain .u16]
        (([], ()), [5], false, 0, ()) ⟨[6], [0, 1, 255, 1, 0]⟩ =
      ⟨(([255], ()), [5], false, 0, ()), .error (.underflow 3 2), ⟨[6, 0, 1, 255], [1, 0]⟩⟩ := by
  constructor
  · exact (@fillAll_absorbs [.ofWire PcrSelection] [.plain .flag, .plain .u16] rfl (([], ()), ())
      (([255], ()), ()) (.ok ()) ⟨[6], [0, 1, 255, 8, 9, 1, 0, 4]⟩
      ⟨[6, 0, 1, 255], [8, 9, 1, 0, 4]⟩ rfl [5] (false, 0, ())).2.2 rfl (by decide)
  · exact (@fillAll_absorbs [.ofWire PcrSelection] [.plain .flag, .plain .u16] rfl (([], ()), ())
      (([255], ()), ()) (.ok ()) ⟨[6], [0, 1, 255, 1, 0]⟩ ⟨[6, 0, 1, 255], [1, 0]⟩ rfl [5]
      (false, 0, ())).2.1 rfl (by decide)

end FieldKind

end TrustedModule
