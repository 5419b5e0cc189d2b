/-
# Theory.DescriptorTable — descriptors, allocated lowest first

A table gives a descriptor number the object it refers to.  `place` opens an
object at the lowest free number, `close` frees a number whether or not it was in
use.  Only free numbers are given out, so an object that is not closed stays where
it is (`Keeps`).
-/
import Mathlib.Data.List.Basic

namespace Lynx.Theory.DescriptorTable

set_option autoImplicit false

universe u

/-- The objects by number; `none` is a free number, and so is every number past
the end. -/
abbrev Table (α : Type u) := List (Option α)

namespace Table

variable {α : Type u}

def get (t : Table α) (n : Nat) : Option α := (t[n]?).join

/-- The lowest free number. -/
def lowestFree : Table α → Nat
  | [] => 0
  | none :: _ => 0
  | some _ :: rest => lowestFree rest + 1

/-- Open `x` at the lowest free number. -/
def place (x : α) : Table α → Table α
  | [] => [some x]
  | none :: rest => some x :: rest
  | some y :: rest => some y :: place x rest

def close (n : Nat) (t : Table α) : Table α := t.set n none


@[simp] theorem get_cons_zero (x : Option α) (t : Table α) : get (x :: t) 0 = x := by
  cases x <;> rfl

@[simp] theorem get_cons_succ (x : Option α) (t : Table α) (n : Nat) :
    get (x :: t) (n + 1) = get t n := rfl

theorem get_close (t : Table α) (n m : Nat) :
    get (close n t) m = if m = n then none else get t m := by
  unfold get close
  rw [List.getElem?_set]
  by_cases same : m = n
  · subst same
    by_cases inside : m < t.length <;> simp [inside]
  · simp [same, Ne.symm same]

theorem get_place (x : α) (t : Table α) (n : Nat) :
    get (place x t) n = if n = lowestFree t then some x else get t n := by
  induction t generalizing n with
  | nil => cases n <;> simp [place, lowestFree, get]
  | cons entry rest ih =>
      cases entry with
      | none => cases n <;> simp [place, lowestFree]
      | some y =>
          cases n with
          | zero => simp [place, lowestFree]
          | succ m => simp [place, lowestFree, ih]

/-- When 0 is free, no other number is the lowest. -/
theorem zero_eq_iff_of_free {t : Table α} {n : Nat} (free : get t 0 = none) :
    0 = n ↔ get t n = none ∧ ∀ m, m < n → get t m ≠ none := by
  constructor
  · rintro rfl
    exact ⟨free, fun m below => absurd below (Nat.not_lt_zero m)⟩
  · rintro ⟨-, taken⟩
    cases n with
    | zero => rfl
    | succ k => exact absurd free (taken 0 (Nat.succ_pos k))

/-- What the lowest free number is. -/
theorem lowestFree_eq_iff {t : Table α} {n : Nat} :
    lowestFree t = n ↔ get t n = none ∧ ∀ m, m < n → get t m ≠ none := by
  induction t generalizing n with
  | nil => exact zero_eq_iff_of_free rfl
  | cons entry rest ih =>
      cases entry with
      | none => exact zero_eq_iff_of_free rfl
      | some y =>
          cases n with
          | zero => simp [lowestFree]
          | succ k =>
              simp only [lowestFree, Nat.add_right_cancel_iff, get_cons_succ]
              rw [ih]
              constructor
              · rintro ⟨free, taken⟩
                refine ⟨free, fun m below => ?_⟩
                cases m with
                | zero => simp
                | succ j => exact taken j (by omega)
              · rintro ⟨free, taken⟩
                exact ⟨free, fun m below => taken (m + 1) (by omega)⟩

theorem get_lowestFree (t : Table α) : get t (lowestFree t) = none :=
  (lowestFree_eq_iff.mp rfl).1

/-- A number below the lowest free one is in use. -/
theorem get_ne_none_of_lt {t : Table α} {n : Nat} (below : n < lowestFree t) :
    get t n ≠ none :=
  (lowestFree_eq_iff.mp rfl).2 n below

/-! ## A table seen through a map of its objects -/

theorem get_map {β : Type u} (f : α → β) (t : Table α) (n : Nat) :
    get (t.map (Option.map f)) n = (get t n).map f := by
  unfold get
  rw [List.getElem?_map]
  cases t[n]? <;> rfl

theorem lowestFree_map {β : Type u} (f : α → β) (t : Table α) :
    lowestFree (t.map (Option.map f)) = lowestFree t := by
  induction t with
  | nil => rfl
  | cons entry rest ih => cases entry <;> simp [lowestFree, ih]

/-! ## Objects that stay open -/

/-- Every object of `t` whose number is not in `except` is still there in `u`. -/
def Keeps (except : List Nat) (t u : Table α) : Prop :=
  ∀ n x, n ∉ except → get t n = some x → get u n = some x

theorem Keeps.refl (except : List Nat) (t : Table α) : Keeps except t t :=
  fun _ _ _ there => there

theorem Keeps.trans {except : List Nat} {t u w : Table α} (first : Keeps except t u)
    (second : Keeps except u w) : Keeps except t w :=
  fun n x outside there => second n x outside (first n x outside there)

theorem Keeps.mono {except larger : List Nat} (sub : except ⊆ larger) {t u : Table α}
    (kept : Keeps except t u) : Keeps larger t u :=
  fun n x outside there => kept n x (fun member => outside (sub member)) there

theorem keeps_place (except : List Nat) (x : α) (t : Table α) : Keeps except t (place x t) := by
  intro n y _ there
  rw [get_place]
  by_cases free : n = lowestFree t
  · rw [free, get_lowestFree] at there
    cases there
  · rw [if_neg free, there]

theorem keeps_close {except : List Nat} {n : Nat} (member : n ∈ except) (t : Table α) :
    Keeps except t (close n t) := by
  intro m x outside there
  have apart : m ≠ n := by
    rintro rfl
    exact outside member
  rw [get_close, if_neg apart, there]

/-- Every object of `u` is one of `new` or was already there in `t`. -/
def Adds (new : List α) (t u : Table α) : Prop :=
  ∀ n x, get u n = some x → x ∈ new ∨ get t n = some x

theorem Adds.trans {new : List α} {t u w : Table α} (first : Adds new t u)
    (second : Adds new u w) : Adds new t w := by
  intro n x there
  rcases second n x there with added | before
  · exact .inl added
  · exact first n x before

theorem adds_place {new : List α} {x : α} (member : x ∈ new) (t : Table α) :
    Adds new t (place x t) := by
  intro n y there
  rw [get_place] at there
  by_cases free : n = lowestFree t
  · rw [if_pos free] at there
    obtain rfl := Option.some.inj there
    exact .inl member
  · rw [if_neg free] at there
    exact .inr there

theorem adds_close (new : List α) (n : Nat) (t : Table α) : Adds new t (close n t) := by
  intro m x there
  rw [get_close] at there
  by_cases same : m = n
  · rw [if_pos same] at there
    cases there
  · rw [if_neg same] at there
    exact .inr there

/-- Close a number and open `x`; the table and the number of `x`. -/
def reopen (n : Nat) (x : α) (t : Table α) : Table α × Nat :=
  (place x (close n t), lowestFree (close n t))

theorem keeps_reopen {except : List Nat} {n : Nat} (member : n ∈ except) (x : α) (t : Table α) :
    Keeps except t (reopen n x t).1 :=
  (keeps_close member t).trans (keeps_place except x (close n t))

theorem adds_reopen {new : List α} (n : Nat) {x : α} (member : x ∈ new) (t : Table α) :
    Adds new t (reopen n x t).1 :=
  (adds_close new n t).trans (adds_place member (close n t))

end Table

end Lynx.Theory.DescriptorTable
