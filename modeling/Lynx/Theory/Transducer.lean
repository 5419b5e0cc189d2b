/-
# Theory.Transducer — machines that read letters and write words

A machine reads one letter at a time and writes a word for each.  `feed` runs it
over a list of letters.  What a reader of a byte stream needs:

* `deliver_eq` — how the letters were cut into pieces does not matter;
* `feed_code` — a machine that returns to its first state after each code word
  decodes a sequence of code words word by word;
* `feed_pipe` — two machines in a row, the second fed with what the first writes;
* `feed_refines` — a machine that does on an abstract state what another does writes the same.
-/
import Mathlib.Data.List.Basic
import Mathlib.Data.List.Forall2

namespace Lynx.Theory.Transducer

set_option autoImplicit false

universe u v w

variable {σ τ : Type u} {α : Type v} {β γ : Type w}

/-- Run the machine over `letters`: the last state, and all that it wrote. -/
def feed (step : σ → α → σ × List β) (s : σ) : List α → σ × List β
  | [] => (s, [])
  | a :: rest =>
      let next := feed step (step s a).1 rest
      (next.1, (step s a).2 ++ next.2)

section Feed

variable {step : σ → α → σ × List β}

@[simp] theorem feed_nil (s : σ) : feed step s [] = (s, []) := rfl

theorem feed_cons (s : σ) (a : α) (rest : List α) :
    feed step s (a :: rest) =
      ((feed step (step s a).1 rest).1, (step s a).2 ++ (feed step (step s a).1 rest).2) := rfl

@[simp] theorem feed_singleton (s : σ) (a : α) : feed step s [a] = step s a := by
  simp [feed_cons]

theorem feed_append (s : σ) (first second : List α) :
    feed step s (first ++ second) =
      ((feed step (feed step s first).1 second).1,
        (feed step s first).2 ++ (feed step (feed step s first).1 second).2) := by
  induction first generalizing s with
  | nil => simp
  | cons a rest ih => simp [feed_cons, ih]

/-- Run the machine over the pieces in which the letters arrive. -/
def deliver (step : σ → α → σ × List β) (s : σ) : List (List α) → σ × List β
  | [] => (s, [])
  | piece :: rest =>
      let here := feed step s piece
      let next := deliver step here.1 rest
      (next.1, here.2 ++ next.2)

/-- **Pieces do not matter.** -/
theorem deliver_eq (s : σ) (pieces : List (List α)) :
    deliver step s pieces = feed step s pieces.flatten := by
  induction pieces generalizing s with
  | nil => rfl
  | cons piece rest ih => simp [deliver, feed_append, ih]

/-- **Decoding.**  A machine that is back in `idle` after each code word, with
the value of the word written, decodes a sequence of code words. -/
theorem feed_code {κ : Type*} {idle : σ} {code : κ → List α} {value : κ → List β}
    {good : κ → Prop} (decodes : ∀ k, good k → feed step idle (code k) = (idle, value k))
    {words : List κ} (all : ∀ k ∈ words, good k) :
    feed step idle (words.flatMap code) = (idle, words.flatMap value) := by
  induction words with
  | nil => rfl
  | cons k rest ih =>
      have here := decodes k (all k (by simp))
      have there := ih fun other member => all other (by simp [member])
      simp [feed_append, here, there]

/-- Decoding for a relation between values and code words. -/
theorem feed_relation {R : β → List α → Prop} {idle : σ}
    (decodes : ∀ b word, R b word → feed step idle word = (idle, [b]))
    {values : List β} {words : List (List α)} (each : List.Forall₂ R values words) :
    feed step idle words.flatten = (idle, values) := by
  induction each with
  | nil => rfl
  | cons here _ ih => simp [feed_append, decodes _ _ here, ih]

/-- **Refinement.**  What holds of one letter holds of all. -/
theorem feed_refines {abstract : τ → α → τ × List β} {f : σ → τ}
    (each : ∀ s a, abstract (f s) a = (f (step s a).1, (step s a).2)) (s : σ) (letters : List α) :
    feed abstract (f s) letters = (f (feed step s letters).1, (feed step s letters).2) := by
  induction letters generalizing s with
  | nil => rfl
  | cons a rest ih => simp [feed_cons, each, ih]

end Feed

section Pipe

variable {first : σ → α → σ × List β} {second : τ → β → τ × List γ}

/-- Two machines in a row. -/
def pipe (first : σ → α → σ × List β) (second : τ → β → τ × List γ) (state : σ × τ) (a : α) :
    (σ × τ) × List γ :=
  let here := first state.1 a
  let there := feed second state.2 here.2
  ((here.1, there.1), there.2)

/-- **Machines in a row.** -/
theorem feed_pipe (s : σ) (t : τ) (letters : List α) :
    feed (pipe first second) (s, t) letters =
      (((feed first s letters).1, (feed second t (feed first s letters).2).1),
        (feed second t (feed first s letters).2).2) := by
  induction letters generalizing s t with
  | nil => rfl
  | cons a rest ih => simp [feed_cons, pipe, ih, feed_append]

end Pipe

end Lynx.Theory.Transducer
