/-
# Countdown.Handlers — the two timers of `main`

`print` counts down on the timer `t`: a successful wait with a count that is not
zero logs the count, takes one off, and waits for one more second.  The handler
of `timer` cancels what is pending on `t`, sets the count anew and starts `t`
again: the restart.  When it ran, and what ran after it, is read off the trace of the
handlers (`restartOf`, `afterRestart`).

Two machines run them.  In `anyStep` waits expire and completions are handled in
any order whatever.  `step` is the single-threaded loop: a poll moves every due
wait to the ready queue in order of expiry, and handlers are run from its front.
Each run of the loop is a run of the first machine (`run_any`).
-/
import Lynx.Theory.Run
import Lynx.Theory.TimerQueue

namespace Lynx.Countdown

open Lynx.Theory.Run
open Lynx.Theory.TimerQueue

set_option autoImplicit false

/-- The timers by their names in `main`. -/
inductive Timer where
  | t
  | timer
  deriving DecidableEq, Repr

/-- What a handler writes. -/
inductive Line where
  /-- `spdlog::info("count: {}", *count)`. -/
  | count (n : Int)
  /-- `"Timer was cancelled\\n"`. -/
  | timerWasCancelled
  /-- `"Timer error: " << ec.message()`. -/
  | timerError (message : String)
  /-- `spdlog::info("Steady Timer expired!")` with the count as `left`. -/
  | steadyTimerExpired (left : Int)
  deriving DecidableEq, Repr

/-- One handler that ran. -/
structure Entry where
  completion : Completion Timer
  time : Time
  /-- The number of the next wait when the handler began. -/
  nextId : Nat
  line : Option Line
  deriving DecidableEq, Repr

namespace Entry

def count? (entry : Entry) : Option Int :=
  match entry.line with
  | some (.count n) => some n
  | _ => none

theorem count?_eq_none {entry : Entry} (silent : ∀ n, entry.line ≠ some (.count n)) :
    entry.count? = none := by
  unfold count?
  split
  · next n logged => exact absurd logged (silent n)
  · rfl

end Entry

/-- When the restart ran, and the first wait it started. -/
structure Restart where
  time : Time
  firstId : Nat
  deriving DecidableEq, Repr

/-- The restart in a trace: the first handler of `timer`. -/
def restartOf (trace : List Entry) : Option Restart :=
  (trace.find? (·.completion.wait.timer = .timer)).map fun entry => ⟨entry.time, entry.nextId⟩

/-- The handlers that ran after the restart. -/
def afterRestart (trace : List Entry) : List Entry :=
  (trace.dropWhile (·.completion.wait.timer ≠ .timer)).tail

structure State where
  queue : Queue Timer
  count : Int
  /-- The handlers that ran, in order. -/
  trace : List Entry

namespace State

def restart (s : State) : Option Restart := restartOf s.trace

def restarted (s : State) : Bool := s.restart.isSome

/-- `main` up to `io_ctx.run()`, with `delay` between the two timers. -/
def start (n0 : Nat) (now delay : Time) : State :=
  let created : Queue Timer :=
    { now := now, nextId := 0, expiry := fun _ => 0, pending := [], ready := [] }
  let first := (created.expiresAt .t now).asyncWait .t
  { queue := ((first.pass delay).expiresAfter .timer (second + second / 2)).asyncWait .timer
    count := n0
    trace := [] }

/-- A handler ran for `c` and wrote `line`. -/
def record (s : State) (c : Completion Timer) (line : Option Line) : State :=
  { s with trace := s.trace ++ [⟨c, s.queue.now, s.queue.nextId, line⟩] }

/-- `print`. -/
def print (s : State) (c : Completion Timer) : State :=
  match c.ec with
  | .none =>
      if s.count ≠ 0 then
        let logged := s.record c (some (.count s.count))
        { logged with
          count := s.count - 1
          queue := (s.queue.expiresAt .t (s.queue.expiry .t + second)).asyncWait .t }
      else s.record c none
  | .operationAborted => s.record c (some .timerWasCancelled)
  | .other message => s.record c (some (.timerError message))

/-- The handler of `timer`, which sets the count to `n1`. -/
def restartCountdown (n1 : Nat) (s : State) (c : Completion Timer) : State :=
  let logged := s.record c (some (.steadyTimerExpired s.count))
  let cancelled := s.queue.cancel .t
  { logged with
    count := n1
    queue := (cancelled.expiresAfter .t (2 * second)).asyncWait .t }

/-- The handler of a completion. -/
def handle (n1 : Nat) (s : State) (c : Completion Timer) : State :=
  match c.wait.timer with
  | .t => s.print c
  | .timer => s.restartCountdown n1 c

/-- The completion at `i` is taken from the ready queue and handled. -/
def runHandler (n1 : Nat) (s : State) (i : Nat) : Option State :=
  match s.queue.ready[i]? with
  | none => none
  | some c => some (handle n1 { s with queue := s.queue.take i } c)

end State

/-! ## Any order -/

inductive AnyEvent where
  | pass (delay : Time)
  | expire (w : Wait Timer)
  | run (i : Nat)
  deriving DecidableEq, Repr

def anyStep (n1 : Nat) (s : State) : AnyEvent → Option State
  | .pass delay => some { s with queue := s.queue.pass delay }
  | .expire w => if w ∈ s.queue.pending then some { s with queue := s.queue.expire w } else none
  | .run i => s.runHandler n1 i

/-- **What one step does.** -/
inductive Acts (n1 : Nat) (s : State) : AnyEvent → State → Prop where
  | pass (delay : Time) : Acts n1 s (.pass delay) { s with queue := s.queue.pass delay }
  | expire {w : Wait Timer} (there : w ∈ s.queue.pending) :
      Acts n1 s (.expire w) { s with queue := s.queue.expire w }
  /-- A success of `t` with a count that is not zero logs, decrements and waits again. -/
  | logs {i : Nat} {c : Completion Timer} (there : s.queue.ready[i]? = some c)
      (own : c.wait.timer = .t) (success : c.ec = .none) (nonzero : s.count ≠ 0) :
      Acts n1 s (.run i)
        { s with
          count := s.count - 1
          queue := ((s.queue.take i).expiresAt .t (s.queue.expiry .t + second)).asyncWait .t
          trace := s.trace ++ [⟨c, s.queue.now, s.queue.nextId, some (.count s.count)⟩] }
  /-- Any other completion of `t` only leaves the queue. -/
  | idles {i : Nat} {c : Completion Timer} {line : Option Line}
      (there : s.queue.ready[i]? = some c) (own : c.wait.timer = .t)
      (other : ¬ (c.ec = .none ∧ s.count ≠ 0)) (silent : ∀ n, line ≠ some (.count n)) :
      Acts n1 s (.run i)
        { s with
          queue := s.queue.take i
          trace := s.trace ++ [⟨c, s.queue.now, s.queue.nextId, line⟩] }
  | restarts {i : Nat} {c : Completion Timer} (there : s.queue.ready[i]? = some c)
      (own : c.wait.timer = .timer) :
      Acts n1 s (.run i)
        { count := n1
          queue := (((s.queue.take i).cancel .t).expiresAfter .t (2 * second)).asyncWait .t
          trace := s.trace ++
            [⟨c, s.queue.now, s.queue.nextId, some (.steadyTimerExpired s.count)⟩] }

theorem acts_of_anyStep {n1 : Nat} {s u : State} {e : AnyEvent}
    (stepped : anyStep n1 s e = some u) : Acts n1 s e u := by
  cases e with
  | pass delay =>
      obtain rfl := Option.some.inj stepped
      exact .pass delay
  | expire w =>
      by_cases there : w ∈ s.queue.pending
      · simp only [anyStep, there, if_true, Option.some.injEq] at stepped
        subst stepped
        exact .expire there
      · simp [anyStep, there] at stepped
  | run i =>
      cases there : s.queue.ready[i]? with
      | none => simp [anyStep, State.runHandler, there] at stepped
      | some c =>
          simp only [anyStep, State.runHandler, there, Option.some.injEq] at stepped
          subst stepped
          cases own : c.wait.timer with
          | timer =>
              simp only [State.handle, own]
              exact .restarts there own
          | t =>
              simp only [State.handle, own, State.print]
              cases ec : c.ec with
              | none =>
                  by_cases nonzero : s.count ≠ 0
                  · simp only [nonzero, if_true, ne_eq, not_false_eq_true]
                    exact .logs there own ec nonzero
                  · simp only [nonzero, if_false]
                    exact .idles there own (fun both => nonzero both.2) (by simp)
              | operationAborted => exact .idles there own (by simp [ec]) (by simp)
              | other message => exact .idles there own (by simp [ec]) (by simp)

/-! ## The loop -/

inductive Event where
  | pass (delay : Time)
  /-- Every due wait goes to the ready queue, in this order. -/
  | poll (order : List (Wait Timer))
  /-- The handler of the first ready completion runs. -/
  | run
  deriving DecidableEq, Repr

def step (n1 : Nat) (s : State) : Event → Option State
  | .pass delay => some { s with queue := s.queue.pass delay }
  | .poll order => if s.queue.Due order then some { s with queue := s.queue.poll order } else none
  | .run => s.runHandler n1 0

theorem step_poll_eq_some {n1 : Nat} {s u : State} {order : List (Wait Timer)}
    (stepped : step n1 s (.poll order) = some u) :
    s.queue.Due order ∧ u = { s with queue := s.queue.poll order } := by
  by_cases due : s.queue.Due order
  · simp only [step, due, if_true, Option.some.injEq] at stepped
    exact ⟨due, stepped.symm⟩
  · simp [step, due] at stepped

/-- One step of the loop is a run of the machine without an order. -/
theorem run_any_of_step {n1 : Nat} {s u : State} {e : Event} (stepped : step n1 s e = some u) :
    ∃ events, run (anyStep n1) s events = some u := by
  cases e with
  | pass delay => exact ⟨[.pass delay], by simpa [run_cons, anyStep, step] using stepped⟩
  | poll order =>
      obtain ⟨due, rfl⟩ := step_poll_eq_some stepped
      refine due.rule (P := fun q => ∃ events, run (anyStep n1) s events =
        some { s with queue := q }) ?_ ⟨[], rfl⟩
      rintro q w there - ⟨earlier, reached⟩
      refine ⟨earlier ++ [.expire w], ?_⟩
      rw [run_snoc, reached]
      exact if_pos there
  | run => exact ⟨[.run 0], by simpa [run_cons, anyStep, step] using stepped⟩

/-- **Every run of the loop is a run of the machine without an order.** -/
theorem run_any {n1 : Nat} {s u : State} {events : List Event}
    (ran : run (step n1) s events = some u) : ∃ anyEvents, run (anyStep n1) s anyEvents = some u := by
  refine run_induction (P := fun _ v => ∃ anyEvents, run (anyStep n1) s anyEvents = some v)
    ⟨[], rfl⟩ ?_ ran
  rintro history middle e after - ⟨earlier, reached⟩ stepped
  obtain ⟨more, onward⟩ := run_any_of_step stepped
  refine ⟨earlier ++ more, ?_⟩
  rw [run_append, reached]
  exact onward

end Lynx.Countdown
