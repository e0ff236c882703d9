import TrustedModule.Command

/-!
# Tables keyed by handles

A finite map from handles. No handle has two entries, so the number of entries is the number of
handles in use.
-/

set_option autoImplicit false

namespace TrustedModule

structure HandleTable (α : Type) where
  entries : List (Handle × α) := []
  nodup : (entries.map Prod.fst).Nodup := by simp
  deriving DecidableEq, Repr

namespace HandleTable

variable {α : Type}

def size (table : HandleTable α) : Nat := table.entries.length

def find? (table : HandleTable α) (handle : Handle) : Option α := table.entries.lookup handle

def contains (table : HandleTable α) (handle : Handle) : Bool := (table.find? handle).isSome

theorem nodup_filter {entries : List (Handle × α)} (p : Handle × α → Bool)
    (h : (entries.map Prod.fst).Nodup) : ((entries.filter p).map Prod.fst).Nodup :=
  h.sublist ((List.filter_sublist).map Prod.fst)

def erase (table : HandleTable α) (handle : Handle) : HandleTable α :=
  ⟨table.entries.filter (·.1 != handle), nodup_filter _ table.nodup⟩

/-- The only entry for the handle becomes the given one. -/
def insert (table : HandleTable α) (handle : Handle) (a : α) : HandleTable α :=
  ⟨(handle, a) :: (table.erase handle).entries, by
    rw [List.map_cons, List.nodup_cons]
    exact ⟨by simp [erase], (table.erase handle).nodup⟩⟩

theorem lookup_filter_ne (entries : List (Handle × α)) {handle other : Handle}
    (h : other ≠ handle) :
    (entries.filter (·.1 != handle)).lookup other = entries.lookup other := by
  induction entries with
  | nil => rfl
  | cons entry rest ih =>
    obtain ⟨key, a⟩ := entry
    by_cases hk : key = handle
    · subst hk
      simp [ih, List.lookup_cons, beq_eq_false_iff_ne.mpr h]
    · simp [hk, ih, List.lookup_cons]

theorem lookup_filter_self (entries : List (Handle × α)) (handle : Handle) :
    (entries.filter (·.1 != handle)).lookup handle = none := by
  induction entries with
  | nil => rfl
  | cons entry rest ih =>
    obtain ⟨key, a⟩ := entry
    by_cases hk : key = handle
    · simp [hk, ih]
    · simp [hk, ih, List.lookup_cons, beq_eq_false_iff_ne.mpr (Ne.symm hk)]

@[simp] theorem find?_erase_self (table : HandleTable α) (handle : Handle) :
    (table.erase handle).find? handle = none :=
  lookup_filter_self table.entries handle

theorem find?_erase_of_ne (table : HandleTable α) {handle other : Handle} (h : other ≠ handle) :
    (table.erase handle).find? other = table.find? other :=
  lookup_filter_ne table.entries h

@[simp] theorem find?_insert_self (table : HandleTable α) (handle : Handle) (a : α) :
    (table.insert handle a).find? handle = some a := by
  simp [find?, insert]

theorem find?_insert_of_ne (table : HandleTable α) {handle other : Handle} (a : α)
    (h : other ≠ handle) : (table.insert handle a).find? other = table.find? other := by
  have := find?_erase_of_ne table h
  simpa [find?, insert, List.lookup_cons, beq_eq_false_iff_ne.mpr h] using this

theorem contains_iff {table : HandleTable α} {handle : Handle} :
    table.contains handle = true ↔ ∃ a, table.find? handle = some a :=
  Option.isSome_iff_exists

/-- Erasing keeps exactly the entries of the other handles. -/
theorem find?_erase_eq_some {table : HandleTable α} {handle other : Handle} {a : α} :
    (table.erase handle).find? other = some a ↔ other ≠ handle ∧ table.find? other = some a := by
  by_cases heq : other = handle
  · simp [heq]
  · simp [heq, find?_erase_of_ne table heq]

/-- Inserting replaces exactly the entry of the handle. -/
theorem find?_insert_eq_some {table : HandleTable α} {handle other : Handle} {a b : α} :
    (table.insert handle a).find? other = some b ↔
      other = handle ∧ a = b ∨ other ≠ handle ∧ table.find? other = some b := by
  by_cases heq : other = handle
  · simp [heq]
  · simp [heq, find?_insert_of_ne table a heq]

theorem length_filter_of_lookup {entries : List (Handle × α)} {handle : Handle} {a : α}
    (hnodup : (entries.map Prod.fst).Nodup) (h : entries.lookup handle = some a) :
    (entries.filter (·.1 != handle)).length + 1 = entries.length := by
  induction entries with
  | nil => cases h
  | cons entry rest ih =>
    obtain ⟨key, value⟩ := entry
    obtain ⟨hnew, hnodup⟩ := List.nodup_cons.mp hnodup
    by_cases hkey : key = handle
    · -- no other entry has the handle, so the rest stays whole
      subst hkey
      have hrest : rest.filter (·.1 != key) = rest := by
        rw [List.filter_eq_self]
        intro other hmem
        have hne : other.1 ≠ key := fun heq => hnew (List.mem_map.mpr ⟨other, hmem, heq⟩)
        simp [hne]
      simp [hrest]
    · rw [List.lookup_cons, beq_eq_false_iff_ne.mpr (Ne.symm hkey)] at h
      have := ih hnodup h
      simp [hkey, this]

theorem size_erase {table : HandleTable α} {handle : Handle} {a : α}
    (h : table.find? handle = some a) : (table.erase handle).size + 1 = table.size :=
  length_filter_of_lookup table.nodup h

/-- The number of handles in use does not change when one of them gets another entry. -/
theorem size_insert_of_some {table : HandleTable α} {handle : Handle} {a : α} (b : α)
    (h : table.find? handle = some a) : (table.insert handle b).size = table.size :=
  size_erase h

theorem size_insert_of_none {table : HandleTable α} {handle : Handle} (b : α)
    (h : table.find? handle = none) : (table.insert handle b).size = table.size + 1 := by
  have hsame : table.entries.filter (·.1 != handle) = table.entries := by
    rw [List.filter_eq_self]
    intro entry hmem
    have hne : ¬ handle = entry.1 := by simpa using List.lookup_eq_none_iff.mp h entry hmem
    simpa using Ne.symm hne
  simp [size, insert, erase, hsame]

end HandleTable

end TrustedModule
