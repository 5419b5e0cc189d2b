/-
# Theory.Fallible — computations that throw

A function that throws is an `Except`; it is taken apart one `bind` at a time
with `bind_eq_ok`, so that a proof about a normal return never unfolds a `do`
block.
-/
import Mathlib.Logic.Basic

namespace Lynx.Theory.Fallible

set_option autoImplicit false

universe u v

variable {ε : Type u} {α β : Type v}

/-- Throw `e` when there is no value. -/
def orThrow (e : ε) : Option α → Except ε α
  | some a => .ok a
  | none => .error e

/-- Throw `e` unless `b`. -/
def check (e : ε) (b : Bool) : Except ε PUnit :=
  if b then .ok ⟨⟩ else .error e

theorem bind_eq_ok {x : Except ε α} {f : α → Except ε β} {b : β} :
    (x >>= f) = .ok b ↔ ∃ a, x = .ok a ∧ f a = .ok b := by
  cases x with
  | error e => exact ⟨fun h => (nomatch h), fun ⟨_, h, _⟩ => nomatch h⟩
  | ok a => exact ⟨fun h => ⟨a, rfl, h⟩, fun ⟨_, same, h⟩ => by cases same; exact h⟩

/-- A computation returns one value. -/
theorem ok_unique {x : Except ε α} {a b : α} (first : x = .ok a) (second : x = .ok b) : a = b :=
  Except.ok.inj (first.symm.trans second)

theorem orThrow_eq_ok {e : ε} {x : Option α} {a : α} : orThrow e x = .ok a ↔ x = some a := by
  cases x <;> simp [orThrow]

theorem check_eq_ok {e : ε} {b : Bool} {u : PUnit} : check e b = .ok u ↔ b = true := by
  cases b <;> simp [check]

/-- A loop none of whose rounds throws. -/
theorem mapM_eq_ok {f : α → Except ε β} {g : α → β} {items : List α}
    (each : ∀ a ∈ items, f a = .ok (g a)) : items.mapM f = .ok (items.map g) := by
  induction items with
  | nil => rfl
  | cons a rest ih =>
      have here := each a (List.mem_cons_self ..)
      have there := ih fun b member => each b (List.mem_cons_of_mem a member)
      rw [List.mapM_cons, here, there]
      rfl

end Lynx.Theory.Fallible
