/-
# Theory.AssocMap — maps as lists of entries

A finite map is a list of entries read by `List.lookup`, which takes the first
entry of a key.  `insert` overwrites that entry where it stands, or appends a new
one, so the other entries keep their places.  The order of the entries is not
part of the map: two lists are the same map when they agree on every lookup.
-/
import Mathlib.Data.List.Basic

namespace Lynx.Theory.AssocMap

set_option autoImplicit false

universe u v

variable {κ : Type u} {β : Type v} [BEq κ]

/-- Set the entry of `k`. -/
def insert (k : κ) (v : β) : List (κ × β) → List (κ × β)
  | [] => [(k, v)]
  | (j, w) :: rest => if k == j then (j, v) :: rest else (j, w) :: insert k v rest

variable [LawfulBEq κ]

@[simp] theorem lookup_insert_self (k : κ) (v : β) (entries : List (κ × β)) :
    (insert k v entries).lookup k = some v := by
  induction entries with
  | nil => simp [insert]
  | cons entry rest ih =>
      obtain ⟨j, w⟩ := entry
      by_cases same : k = j
      · simp [insert, same]
      · have differs : (k == j) = false := beq_eq_false_iff_ne.mpr same
        simp [insert, List.lookup_cons, differs, ih]

theorem lookup_insert_ne {k j : κ} (other : j ≠ k) (v : β) (entries : List (κ × β)) :
    (insert k v entries).lookup j = entries.lookup j := by
  induction entries with
  | nil =>
      have differs : (j == k) = false := beq_eq_false_iff_ne.mpr other
      simp [insert, List.lookup_cons, differs]
  | cons entry rest ih =>
      obtain ⟨i, w⟩ := entry
      by_cases same : k = i
      · subst same
        have differs : (j == k) = false := beq_eq_false_iff_ne.mpr other
        simp [insert, List.lookup_cons, differs]
      · have kept : (k == i) = false := beq_eq_false_iff_ne.mpr same
        simp [insert, kept, List.lookup_cons, ih]

/-- Setting an entry to the value it has changes nothing. -/
theorem insert_of_lookup {k : κ} {v : β} {entries : List (κ × β)}
    (present : entries.lookup k = some v) : insert k v entries = entries := by
  induction entries with
  | nil => cases present
  | cons entry rest ih =>
      obtain ⟨j, w⟩ := entry
      by_cases same : k = j
      · subst same
        obtain rfl : w = v := by simpa [List.lookup_cons] using present
        simp [insert]
      · have differs : (k == j) = false := beq_eq_false_iff_ne.mpr same
        have later : rest.lookup k = some v := by
          simpa [List.lookup_cons, differs] using present
        simp [insert, differs, ih later]

end Lynx.Theory.AssocMap
