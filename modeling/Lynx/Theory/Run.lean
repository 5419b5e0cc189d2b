/-
# Theory.Run — runs of a step function, and what holds along them

A system is a partial step function `σ → ε → Option σ`: an event that is not
enabled in a state gives `none`.  `run` executes a list of events.  Three ways
of speaking about a run follow, each over the events already executed as well
as over the state they lead to:

* `Always` — a predicate of every state a run passes through, the first and the
  last included;
* `EveryStep` — a condition on every step of a run, read before the step;
* the rules that connect them: `run_induction` (what one step keeps, a run
  keeps), `always_of_everyStep` (what one step keeps under a condition, a run
  whose steps meet the condition keeps) and `always_iff_everyStep` (where one
  step keeps the predicate exactly under the condition, so does the run).

`collect` puts together what the steps of a run give, each read before its step;
`collect_eq_iff` compares two such lists step by step.
-/
import Mathlib.Data.List.Infix

namespace Lynx.Theory.Run

set_option autoImplicit false

universe u v

variable {σ : Type u} {ε : Type v}

/-- Execute `events` in order from `s`; `none` when one of them is not enabled. -/
def run (step : σ → ε → Option σ) (s : σ) : List ε → Option σ
  | [] => some s
  | e :: rest =>
      match step s e with
      | none => none
      | some t => run step t rest

section Basic

variable {step : σ → ε → Option σ}

@[simp] theorem run_nil (s : σ) : run step s [] = some s := rfl

theorem run_cons (s : σ) (e : ε) (rest : List ε) :
    run step s (e :: rest) = (step s e).bind fun t => run step t rest := by
  simp only [run]
  cases step s e <;> rfl

theorem run_append (s : σ) (first second : List ε) :
    run step s (first ++ second) = (run step s first).bind fun t => run step t second := by
  induction first generalizing s with
  | nil => rfl
  | cons e rest ih =>
      simp only [List.cons_append, run_cons, Option.bind_assoc]
      congr 1
      funext t
      exact ih t

theorem run_snoc (s : σ) (history : List ε) (e : ε) :
    run step s (history ++ [e]) = (run step s history).bind fun t => step t e := by
  rw [run_append]
  congr 1
  funext t
  rw [run_cons]
  cases step t e <;> rfl

/-- A run that ends in a state after one more event passed through a state before it. -/
theorem run_snoc_eq_some {s t : σ} {history : List ε} {e : ε}
    (ran : run step s (history ++ [e]) = some t) :
    ∃ middle, run step s history = some middle ∧ step middle e = some t := by
  rw [run_snoc] at ran
  exact Option.bind_eq_some_iff.mp ran

/-- Every prefix of a run is a run. -/
theorem run_of_prefix {s t : σ} {events history : List ε} (ran : run step s events = some t)
    (pre : history <+: events) : ∃ middle, run step s history = some middle := by
  obtain ⟨rest, rfl⟩ := pre
  rw [run_append] at ran
  obtain ⟨middle, reached, -⟩ := Option.bind_eq_some_iff.mp ran
  exact ⟨middle, reached⟩

/-- **The run rule.**  What holds of no events in the first state, and is kept by
each further event, holds of every run. -/
theorem run_induction {P : List ε → σ → Prop} {s : σ} (first : P [] s)
    (next : ∀ history middle e t, run step s history = some middle → P history middle →
      step middle e = some t → P (history ++ [e]) t) :
    ∀ {events : List ε} {t : σ}, run step s events = some t → P events t := by
  intro events
  induction events using List.reverseRecOn with
  | nil =>
      intro t ran
      obtain rfl : s = t := by simpa using ran
      exact first
  | append_singleton history e ih =>
      intro t ran
      obtain ⟨middle, reached, stepped⟩ := run_snoc_eq_some ran
      exact next history middle e t reached (ih reached) stepped

/-- The run rule for a predicate of the state alone. -/
theorem run_invariant {P : σ → Prop} (next : ∀ s e t, P s → step s e = some t → P t)
    {s t : σ} {events : List ε} (first : P s) (ran : run step s events = some t) : P t :=
  run_induction (P := fun _ state => P state) first
    (fun _ middle e after _ holds stepped => next middle e after holds stepped) ran

end Basic

section Along

variable (step : σ → ε → Option σ) (s : σ)

/-- `P` holds of every state the run of `events` from `s` passes through. -/
def Always (P : List ε → σ → Prop) (events : List ε) : Prop :=
  ∀ history t, history <+: events → run step s history = some t → P history t

/-- Every step of the run of `events` from `s` meets `condition`, read before the step. -/
def EveryStep (condition : List ε → σ → ε → Prop) (events : List ε) : Prop :=
  ∀ history e t, history ++ [e] <+: events → run step s history = some t → condition history t e

variable {step s}

theorem Always.last {P : List ε → σ → Prop} {events : List ε} {t : σ}
    (always : Always step s P events) (ran : run step s events = some t) : P events t :=
  always events t (List.prefix_refl events) ran

theorem EveryStep.of_prefix {condition : List ε → σ → ε → Prop} {events history : List ε}
    (meets : EveryStep step s condition events) (pre : history <+: events) :
    EveryStep step s condition history :=
  fun earlier e t earlierPre ran => meets earlier e t (earlierPre.trans pre) ran

@[simp] theorem everyStep_nil {condition : List ε → σ → ε → Prop} :
    EveryStep step s condition [] := by
  intro history e t pre
  simp at pre

/-- The steps of a longer run. -/
theorem everyStep_snoc_iff {condition : List ε → σ → ε → Prop} {history : List ε} {e : ε} {t : σ}
    (ran : run step s history = some t) :
    EveryStep step s condition (history ++ [e]) ↔
      EveryStep step s condition history ∧ condition history t e := by
  constructor
  · intro meets
    exact ⟨meets.of_prefix (List.prefix_append history [e]),
      meets history e t (List.prefix_refl _) ran⟩
  · rintro ⟨meets, last⟩ earlier d u pre reached
    rcases List.prefix_concat_iff.mp pre with same | before
    · obtain ⟨rfl, rfl⟩ := List.append_singleton_inj.mp same
      obtain rfl : t = u := by
        rw [ran] at reached
        exact Option.some.inj reached
      exact last
    · exact meets earlier d u before reached

theorem everyStep_singleton_iff {condition : List ε → σ → ε → Prop} {e : ε} :
    EveryStep step s condition [e] ↔ condition [] s e := by
  have here : run step s [] = some s := run_nil s
  have last : EveryStep step s condition ([] ++ [e]) ↔ _ := everyStep_snoc_iff here
  simpa using last

/-- The steps of a run by their numbers. -/
theorem everyStep_iff_getElem {condition : List ε → σ → ε → Prop} {events : List ε} :
    EveryStep step s condition events ↔
      ∀ i, ∀ inside : i < events.length, ∀ t ∈ run step s (events.take i),
        condition (events.take i) t events[i] := by
  constructor
  · intro meets i inside t reached
    refine meets (events.take i) events[i] t ?_ reached
    rw [← List.take_succ_eq_append_getElem inside]
    exact List.take_prefix _ _
  · intro each history e t pre reached
    obtain ⟨rest, rfl⟩ := pre
    have here := each history.length (by simp) t (by simpa using reached)
    simpa using here

instance {condition : List ε → σ → ε → Prop} [∀ history t e, Decidable (condition history t e)]
    (events : List ε) : Decidable (EveryStep step s condition events) :=
  decidable_of_iff _ everyStep_iff_getElem.symm

/-- A run whose steps all meet the condition keeps what one such step keeps. -/
theorem always_of_everyStep {P : List ε → σ → Prop} {condition : List ε → σ → ε → Prop}
    (first : P [] s)
    (next : ∀ history middle e t, run step s history = some middle → P history middle →
      condition history middle e → step middle e = some t → P (history ++ [e]) t)
    {events : List ε} (meets : EveryStep step s condition events) :
    Always step s P events := by
  intro history
  induction history using List.reverseRecOn with
  | nil =>
      intro t _ ran
      obtain rfl : s = t := by simpa using ran
      exact first
  | append_singleton earlier e ih =>
      intro t pre ran
      obtain ⟨middle, reached, stepped⟩ := run_snoc_eq_some ran
      have before : P earlier middle := ih middle ((List.prefix_append earlier [e]).trans pre) reached
      exact next earlier middle e t reached before (meets earlier e middle pre reached) stepped

/-- **Exactness along a run.**  Where one step keeps `P` exactly under the
condition, a whole run keeps `P` exactly when all its steps meet it. -/
theorem always_iff_everyStep {P : List ε → σ → Prop} {condition : List ε → σ → ε → Prop}
    (first : P [] s)
    (exact : ∀ history middle e t, run step s history = some middle → P history middle →
      step middle e = some t → (P (history ++ [e]) t ↔ condition history middle e))
    {events : List ε} {last : σ} (ran : run step s events = some last) :
    Always step s P events ↔ EveryStep step s condition events := by
  constructor
  · intro always history e middle pre reached
    have before : P history middle :=
      always history middle ((List.prefix_append history [e]).trans pre) reached
    obtain ⟨t, after⟩ := run_of_prefix ran pre
    have stepped : step middle e = some t := by
      rw [run_snoc, reached] at after
      exact after
    exact (exact history middle e t reached before stepped).mp (always (history ++ [e]) t pre after)
  · exact always_of_everyStep first fun history middle e t reached before meets stepped =>
      (exact history middle e t reached before stepped).mpr meets

/-- The steps of a run whose first step is taken apart. -/
theorem everyStep_cons_iff {condition : σ → ε → Prop} {e : ε} {rest : List ε} :
    EveryStep step s (fun _ => condition) (e :: rest) ↔
      condition s e ∧ ∀ t, step s e = some t → EveryStep step t (fun _ => condition) rest := by
  constructor
  · intro meets
    refine ⟨meets [] e s (by simp) (run_nil s), fun t stepped history d u pre reached => ?_⟩
    refine meets (e :: history) d u (by simpa using pre) ?_
    rw [run_cons, stepped]
    exact reached
  · rintro ⟨first, later⟩ history d u pre reached
    cases history with
    | nil =>
        obtain rfl : s = u := by simpa using reached
        obtain rfl : d = e := by simpa using pre
        exact first
    | cons c history =>
        obtain ⟨rfl, inside⟩ := List.cons_prefix_cons.mp pre
        rw [run_cons] at reached
        obtain ⟨t, stepped, reached⟩ := Option.bind_eq_some_iff.mp reached
        exact later t stepped history d u inside reached

end Along

section Collect

universe w

variable {β : Type w} (step : σ → ε → Option σ) (give : σ → ε → List β)

/-- What the steps of a run give, in order. -/
def collect : σ → List ε → List β
  | _, [] => []
  | s, e :: rest =>
      give s e ++
        match step s e with
        | some t => collect t rest
        | none => []

variable {step give}

theorem collect_append {s t : σ} {first : List ε} (ran : run step s first = some t)
    (second : List ε) :
    collect step give s (first ++ second) =
      collect step give s first ++ collect step give t second := by
  induction first generalizing s with
  | nil =>
      obtain rfl : s = t := by simpa using ran
      rfl
  | cons e rest ih =>
      rw [run_cons] at ran
      obtain ⟨next, stepped, later⟩ := Option.bind_eq_some_iff.mp ran
      simp only [List.cons_append, collect, stepped, ih later, List.append_assoc]

theorem collect_singleton (s : σ) (e : ε) : collect step give s [e] = give s e := by
  unfold collect
  cases step s e <;> simp [collect]

theorem collect_snoc {s t : σ} {history : List ε} (ran : run step s history = some t) (e : ε) :
    collect step give s (history ++ [e]) = collect step give s history ++ give t e := by
  rw [collect_append ran, collect_singleton]

/-- A step in the middle that gives nothing. -/
theorem collect_append_cons {s t u : σ} {first : List ε} {e : ε} (ran : run step s first = some t)
    (stepped : step t e = some u) (quiet : give t e = []) (rest : List ε) :
    collect step give s (first ++ e :: rest) =
      collect step give s first ++ collect step give u rest := by
  rw [collect_append ran]
  simp only [collect, stepped, quiet, List.nil_append]

variable {other : σ → ε → List β}

theorem collect_sublist (part : ∀ s e, (give s e).Sublist (other s e)) (s : σ) (events : List ε) :
    (collect step give s events).Sublist (collect step other s events) := by
  induction events generalizing s with
  | nil => exact List.Sublist.refl _
  | cons e rest ih =>
      refine (part s e).append ?_
      cases step s e with
      | none => exact List.Sublist.refl _
      | some t => exact ih t

/-- Parts of two lists that make up the whole are the two lists. -/
theorem eq_and_eq_of_append_eq {α : Type w} {first second whole rest : List α}
    (firstPart : first.Sublist whole) (secondPart : second.Sublist rest)
    (same : first ++ second = whole ++ rest) : first = whole ∧ second = rest := by
  have lengths := congrArg List.length same
  rw [List.length_append, List.length_append] at lengths
  have firstShort := firstPart.length_le
  have secondShort := secondPart.length_le
  exact ⟨firstPart.eq_of_length (by omega), secondPart.eq_of_length (by omega)⟩

/-- **A part is the whole exactly when every step gives the whole.** -/
theorem collect_eq_iff (part : ∀ s e, (give s e).Sublist (other s e)) (s : σ) (events : List ε) :
    collect step give s events = collect step other s events ↔
      EveryStep step s (fun _ s e => give s e = other s e) events := by
  induction events generalizing s with
  | nil => simp [collect]
  | cons e rest ih =>
      rw [everyStep_cons_iff]
      have firstPart := part s e
      unfold collect
      cases stepped : step s e with
      | none => simp
      | some t =>
          have restPart : (collect step give t rest).Sublist (collect step other t rest) :=
            collect_sublist part t rest
          simp only [Option.some.injEq, forall_eq']
          rw [← ih t]
          constructor
          · exact eq_and_eq_of_append_eq firstPart restPart
          · rintro ⟨first, later⟩
            rw [first, later]

end Collect

end Lynx.Theory.Run
