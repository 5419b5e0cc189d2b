/-
# Theory.Zipper — a list with a place in it

What stands before the place, the nearest item first, and what stands after it.
An edit or a move at the place touches the two ends that meet there, so there is no
index that could be wrong.
-/
import Mathlib.Data.List.Basic

namespace Lynx.Theory

set_option autoImplicit false

universe u

/-- A list with a place in it. -/
structure Zipper (α : Type u) where
  /-- What stands before the place, the nearest item first. -/
  before : List α := []
  after : List α := []
  deriving DecidableEq, Repr

namespace Zipper

variable {α : Type u}

def toList (z : Zipper α) : List α := z.before.reverse ++ z.after

def insert (a : α) (z : Zipper α) : Zipper α := { z with before := a :: z.before }

def eraseBefore (z : Zipper α) : Zipper α := { z with before := z.before.tail }

def eraseAfter (z : Zipper α) : Zipper α := { z with after := z.after.tail }

def left (z : Zipper α) : Zipper α :=
  match z.before with
  | [] => z
  | a :: rest => { before := rest, after := a :: z.after }

def right (z : Zipper α) : Zipper α :=
  match z.after with
  | [] => z
  | a :: rest => { before := a :: z.before, after := rest }

def home (z : Zipper α) : Zipper α := { before := [], after := z.toList }

def end' (z : Zipper α) : Zipper α := { before := z.toList.reverse, after := [] }

end Zipper

/-! ## A list that is split at a place -/

section Split

variable {α : Type u} {before after items : List α} {position : Nat}

/-- A position inside a list splits it. -/
theorem exists_split (inside : position ≤ items.length) :
    ∃ before after, items = before ++ after ∧ position = before.length :=
  ⟨items.take position, items.drop position, (List.take_append_drop ..).symm,
    (List.length_take_of_le inside).symm⟩

theorem insertIdx_append (a : α) :
    (before ++ after).insertIdx before.length a = before ++ a :: after := by
  induction before with
  | nil => simp
  | cons b rest ih => simp [ih]

theorem eraseIdx_append (before after : List α) (a : α) :
    (before ++ a :: after).eraseIdx before.length = before ++ after := by
  rw [List.eraseIdx_append_of_length_le (Nat.le_refl _)]
  simp

end Split

end Lynx.Theory
