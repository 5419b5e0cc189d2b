/-
# Countdown.Bounds — the countdown under every order of completions

The waits of `t` form one chain: a wait is started only by the handler of the one
before it, or by the restart, which runs once.  The weight of a state adds up
what may still run the handler `print` (the waits of `t` that have not been handled,
the count, and one more countdown while the restart is ahead); one handler after
the other, what it loses is what ran.  `Counted` is the invariant and `Bounded`
what it gives for every run.
-/
import Lynx.Countdown.Handlers

namespace Lynx.Countdown

open Lynx.Theory.Run
open Lynx.Theory.TimerQueue

set_option autoImplicit false

/-! ## What was logged -/

/-- The counts in a trace. -/
def counts (trace : List Entry) : List Int := trace.filterMap Entry.count?

/-- The counts logged after the restart. -/
def countsAfterRestart (trace : List Entry) : List Int := counts (afterRestart trace)

/-- How often `print` ran. -/
def prints (trace : List Entry) : Nat := trace.countP (·.completion.wait.timer = .t)

theorem counts_snoc (trace : List Entry) (entry : Entry) :
    counts (trace ++ [entry]) = counts trace ++ entry.count?.toList := by
  unfold counts
  rw [List.filterMap_append]
  cases logged : entry.count? <;> simp [logged]

theorem restartOf_snoc (trace : List Entry) (entry : Entry) :
    restartOf (trace ++ [entry]) =
      (restartOf trace).or
        (if entry.completion.wait.timer = .timer then some ⟨entry.time, entry.nextId⟩ else none) := by
  unfold restartOf
  rw [List.find?_append]
  by_cases own : entry.completion.wait.timer = .timer <;>
    cases trace.find? (·.completion.wait.timer = .timer) <;> simp [own]

/-- A handler of `t` is no restart. -/
theorem State.restart_snoc_of_t {s : State} {queue : Queue Timer} {count : Int}
    {c : Completion Timer} {time : Time} {nextId : Nat} {line : Option Line}
    (own : c.wait.timer = .t) :
    State.restart ⟨queue, count, s.trace ++ [⟨c, time, nextId, line⟩]⟩ = s.restart := by
  simp [State.restart, restartOf_snoc, own]

theorem State.restart_snoc_of_timer {s : State} {queue : Queue Timer} {count : Int}
    {c : Completion Timer} {time : Time} {nextId : Nat} {line : Option Line}
    (own : c.wait.timer = .timer) (first : s.restart = none) :
    State.restart ⟨queue, count, s.trace ++ [⟨c, time, nextId, line⟩]⟩ = some ⟨time, nextId⟩ := by
  have none_ : restartOf s.trace = none := first
  simp [State.restart, restartOf_snoc, own, none_]

theorem afterRestart_snoc (trace : List Entry) (entry : Entry) :
    afterRestart (trace ++ [entry]) =
      afterRestart trace ++ if (restartOf trace).isSome then [entry] else [] := by
  induction trace with
  | nil =>
      by_cases own : entry.completion.wait.timer = .timer <;> simp [afterRestart, restartOf, own]
  | cons old rest ih =>
      by_cases own : old.completion.wait.timer = .timer
      · simp [afterRestart, restartOf, own]
      · simpa [afterRestart, restartOf, own] using ih

theorem countsAfterRestart_snoc (trace : List Entry) (entry : Entry) :
    countsAfterRestart (trace ++ [entry]) =
      countsAfterRestart trace ++
        if (restartOf trace).isSome then entry.count?.toList else [] := by
  unfold countsAfterRestart
  rw [afterRestart_snoc]
  by_cases after : (restartOf trace).isSome
  · simp [after, counts_snoc]
  · simp [after]

theorem prints_snoc (trace : List Entry) (entry : Entry) :
    prints (trace ++ [entry]) =
      prints trace + if entry.completion.wait.timer = .t then 1 else 0 := by
  unfold prints
  rw [List.countP_append, List.countP_singleton]
  simp

/-- `n, n - 1, …, 1`. -/
def countdown (n : Nat) : List Int := (List.range n).map fun k : Nat => (n : Int) - k

example : countdown 3 = [3, 2, 1] := by decide

theorem countdown_take_succ {n k : Nat} (left : k < n) :
    (countdown n).take (k + 1) = (countdown n).take k ++ [(n : Int) - k] := by
  rw [List.take_add_one]
  simp [countdown, left]

/-! ## The bounds -/

/-- What the countdown promises of a state. -/
structure Bounded (n0 n1 : Nat) (s : State) : Prop where
  onePending : (s.queue.pendingOn .t).length ≤ 1
  nonneg : 0 ≤ s.count
  atMost : s.count ≤ max n0 n1
  inOrder : countsAfterRestart s.trace <+: countdown n1
  printsAtMost : prints s.trace ≤ n0 + n1 + 2
  quiescent : s.restarted → s.queue.pending = [] → s.queue.ready = [] → s.count = 0

/-- What `print` does on the completion `c`. -/
def Prints (s : State) (c : Completion Timer) (u : State) : Prop :=
  if c.ec = .none ∧ s.count ≠ 0 then
    counts u.trace = counts s.trace ++ [s.count] ∧ u.count = s.count - 1 ∧
      u.queue.pendingOn .t =
        [{ id := s.queue.nextId, timer := .t, expiry := s.queue.expiry .t + second }]
  else
    counts u.trace = counts s.trace ∧ u.count = s.count ∧
      u.queue.pendingOn .t = s.queue.pendingOn .t ∧ u.queue.nextId = s.queue.nextId

/-- What the handler of `timer` does: no count is logged, the new one is set, and the
wait of two seconds is what is pending on `t`. -/
def Restarts (n1 : Nat) (s u : State) : Prop :=
  counts u.trace = counts s.trace ∧ u.count = n1 ∧
    u.queue.pendingOn .t =
      [{ id := s.queue.nextId, timer := .t, expiry := s.queue.now + 2 * second }]

/-- The handler of `c` is the one more in the trace. -/
def Recorded (s : State) (c : Completion Timer) (u : State) : Prop :=
  ∃ line, u.trace = s.trace ++ [⟨c, s.queue.now, s.queue.nextId, line⟩]

/-- Only a success of `t` with a count that is not zero logs a count, takes one off and
waits again; the other handler sets the count, and outside handlers nothing of this
happens. -/
def OnlySuccess (n1 : Nat) (s : State) (e : AnyEvent) (u : State) : Prop :=
  match e with
  | .run i => ∀ c, s.queue.ready[i]? = some c →
      Recorded s c u ∧
        match c.wait.timer with
        | .t => Prints s c u
        | .timer => Restarts n1 s u
  | _ => counts u.trace = counts s.trace ∧ u.count = s.count ∧ u.queue.nextId = s.queue.nextId

theorem onlySuccess_of_acts {n1 : Nat} {s u : State} {e : AnyEvent} (acts : Acts n1 s e u) :
    OnlySuccess n1 s e u := by
  cases acts with
  | pass delay => exact ⟨rfl, rfl, rfl⟩
  | expire there => exact ⟨rfl, rfl, rfl⟩
  | logs there own success nonzero =>
      intro c' there'
      obtain rfl := Option.some.inj (there.symm.trans there')
      refine ⟨⟨_, rfl⟩, ?_⟩
      rw [own]
      show Prints s _ _
      rw [Prints, if_pos ⟨success, nonzero⟩]
      exact ⟨counts_snoc _ _, rfl, Queue.pendingOn_rearmed _ _ _⟩
  | @idles i c line there own other silent =>
      intro c' there'
      obtain rfl := Option.some.inj (there.symm.trans there')
      refine ⟨⟨_, rfl⟩, ?_⟩
      rw [own]
      show Prints s _ _
      rw [Prints, if_neg other]
      refine ⟨?_, rfl, rfl, rfl⟩
      rw [counts_snoc, Entry.count?_eq_none silent, Option.toList_none, List.append_nil]
  | restarts there own =>
      intro c' there'
      obtain rfl := Option.some.inj (there.symm.trans there')
      refine ⟨⟨_, rfl⟩, ?_⟩
      rw [own]
      refine ⟨?_, rfl, Queue.pendingOn_rearmed _ _ _⟩
      show counts (s.trace ++ _) = counts s.trace
      rw [counts_snoc, Entry.count?_eq_none (by simp), Option.toList_none, List.append_nil]

/-! ## The invariant -/

/-- The handlers of `t` that may still run, counting the restarted countdown while it
is ahead. -/
def weight (n1 : Nat) (s : State) : Int :=
  match s.restart with
  | none => s.queue.outstanding .t + s.count + (n1 + 1)
  | some _ => s.queue.outstanding .t + s.count

/-- How far the counts have come. -/
def InOrder (n0 n1 : Nat) (s : State) : Prop :=
  match s.restart with
  | none => s.count ≤ n0 ∧ countsAfterRestart s.trace = []
  | some _ => ∃ k ≤ n1, s.count = n1 - k ∧ countsAfterRestart s.trace = (countdown n1).take k

structure Counted (n0 n1 : Nat) (s : State) : Prop where
  onePending : (s.queue.pendingOn .t).length ≤ 1
  nonneg : 0 ≤ s.count
  restartsOnce : s.queue.outstanding .timer = if s.restarted then 0 else 1
  light : prints s.trace + weight n1 s ≤ n0 + n1 + 2
  inOrder : InOrder n0 n1 s
  alive : s.restarted → s.count ≠ 0 → s.queue.pendingOn .t ≠ [] ∨ s.queue.succeededOn .t ≠ []
  lone : s.restart = none → s.queue.outstanding .t ≤ 1

section Step

variable {n0 n1 : Nat} {s u : State} {e : AnyEvent}

theorem onePending_of_acts (acts : Acts n1 s e u) (before : (s.queue.pendingOn .t).length ≤ 1) :
    (u.queue.pendingOn .t).length ≤ 1 := by
  cases acts with
  | pass delay => exact before
  | @expire w there =>
      show ((s.queue.expire w).pendingOn .t).length ≤ 1
      rw [Queue.pendingOn_expire]
      exact List.length_erase_le.trans before
  | logs there own success nonzero =>
      show (Queue.pendingOn _ Timer.t).length ≤ 1
      rw [Queue.pendingOn_rearmed]
      exact Nat.le_refl 1
  | idles there own other silent => exact before
  | restarts there own =>
      show (Queue.pendingOn _ Timer.t).length ≤ 1
      rw [Queue.expiresAfter, Queue.pendingOn_rearmed]
      exact Nat.le_refl 1

theorem nonneg_of_acts (acts : Acts n1 s e u) (before : 0 ≤ s.count) : 0 ≤ u.count := by
  cases acts with
  | pass delay => exact before
  | expire there => exact before
  | logs there own success nonzero =>
      show 0 ≤ s.count - 1
      omega
  | idles there own other silent => exact before
  | restarts there own => exact Int.natCast_nonneg n1

/-- While a completion of `timer` is ready the restart has not run. -/
theorem not_restarted_of_ready {i : Nat} {c : Completion Timer}
    (once : s.queue.outstanding .timer = if s.restarted then 0 else 1)
    (there : s.queue.ready[i]? = some c) (own : c.wait.timer = .timer) :
    s.restart = none ∧ (s.queue.take i).outstanding .timer = 0 := by
  have taken := Queue.outstanding_take_of_own there own
  rw [once] at taken
  cases restart : s.restart with
  | some r =>
      rw [State.restarted, restart, Option.isSome_some, if_pos rfl] at taken
      omega
  | none =>
      rw [State.restarted, restart, Option.isSome_none, if_neg Bool.false_ne_true] at taken
      exact ⟨rfl, by omega⟩

theorem restartsOnce_of_acts (acts : Acts n1 s e u)
    (once : s.queue.outstanding .timer = if s.restarted then 0 else 1) :
    u.queue.outstanding .timer = if u.restarted then 0 else 1 := by
  cases acts with
  | pass delay => exact once
  | @expire w there =>
      show (s.queue.expire w).outstanding .timer = _
      rw [Queue.outstanding_expire _ there]
      exact once
  | logs there own success nonzero =>
      show Queue.outstanding _ Timer.timer = _
      rw [Queue.outstanding_asyncWait, Queue.outstanding_expiresAt,
        Queue.outstanding_take_of_other there own (by decide), State.restarted,
        State.restart_snoc_of_t own]
      exact once
  | idles there own other silent =>
      show Queue.outstanding _ Timer.timer = _
      rw [Queue.outstanding_take_of_other there own (by decide), State.restarted,
        State.restart_snoc_of_t own]
      exact once
  | restarts there own =>
      obtain ⟨first, noOther⟩ := not_restarted_of_ready once there own
      show Queue.outstanding _ Timer.timer = _
      rw [Queue.outstanding_asyncWait, Queue.expiresAfter, Queue.outstanding_expiresAt,
        Queue.outstanding_cancel, noOther, State.restarted, State.restart_snoc_of_timer own first]
      rfl

/-- **A handler weighs what it takes from the state.** -/
theorem weight_of_acts (acts : Acts n1 s e u)
    (once : s.queue.outstanding .timer = if s.restarted then 0 else 1) (nonneg : 0 ≤ s.count) :
    prints u.trace + weight n1 u ≤ prints s.trace + weight n1 s := by
  cases acts with
  | pass delay => exact Int.le_refl _
  | expire there =>
      simp only [weight, Queue.outstanding_expire _ there]
      exact Int.le_refl _
  | @logs i c there own success nonzero =>
      have taken := Queue.outstanding_take_of_own there own
      have queued := Queue.outstanding_asyncWait
        ((s.queue.take i).expiresAt .t (s.queue.expiry .t + second)) Timer.t Timer.t
      rw [Queue.outstanding_expiresAt, if_pos rfl, taken] at queued
      simp only [weight, prints_snoc, own, if_true, queued, State.restart_snoc_of_t own]
      cases s.restart <;> simp only <;> omega
  | idles there own other silent =>
      have taken := Queue.outstanding_take_of_own there own
      simp only [weight, prints_snoc, own, if_true, State.restart_snoc_of_t own]
      cases s.restart <;> simp only <;> omega
  | @restarts i c there own =>
      have before := (not_restarted_of_ready once there own).1
      have taken := Queue.outstanding_take_of_other there own (v := .t) (by decide)
      have queued := Queue.outstanding_asyncWait
        (((s.queue.take i).cancel .t).expiresAfter .t (2 * second)) Timer.t Timer.t
      rw [Queue.expiresAfter, Queue.outstanding_expiresAt, Queue.outstanding_cancel, if_pos rfl,
        taken] at queued
      simp only [weight, prints_snoc, own, queued, before, Queue.expiresAfter,
        State.restart_snoc_of_timer own before]
      simp only [reduceCtorEq, if_false]
      omega

theorem inOrder_of_acts (acts : Acts n1 s e u) (before : InOrder n0 n1 s)
    (once : s.queue.outstanding .timer = if s.restarted then 0 else 1) :
    InOrder n0 n1 u := by
  unfold InOrder at before ⊢
  cases acts with
  | pass delay => exact before
  | expire there => exact before
  | @logs i c there own success nonzero =>
      simp only [countsAfterRestart_snoc, State.restart_snoc_of_t own]
      cases restart : s.restart with
      | none =>
          have none_ : restartOf s.trace = none := restart
          simp only [restart] at before
          exact ⟨by omega, by simpa [none_] using before.2⟩
      | some r =>
          have some_ : restartOf s.trace = some r := restart
          simp only [restart] at before
          obtain ⟨k, bound, left, logged⟩ := before
          have more : k < n1 := by omega
          refine ⟨k + 1, more, by omega, ?_⟩
          rw [countdown_take_succ more, logged, left, some_]
          rfl
  | @idles i c line there own other silent =>
      have quiet : Entry.count? ⟨c, s.queue.now, s.queue.nextId, line⟩ = none :=
        Entry.count?_eq_none silent
      simpa [State.restart_snoc_of_t own, countsAfterRestart_snoc, quiet] using before
  | restarts there own =>
      have first := (not_restarted_of_ready once there own).1
      have none_ : restartOf s.trace = none := first
      simp only [first] at before
      rw [State.restart_snoc_of_timer own first]
      refine ⟨0, Nat.zero_le n1, by simp, ?_⟩
      rw [countsAfterRestart_snoc, before.2, none_]
      rfl

/-- A count that is left has a wait to take it off. -/
theorem alive_of_acts (acts : Acts n1 s e u)
    (before : s.restarted → s.count ≠ 0 →
      s.queue.pendingOn .t ≠ [] ∨ s.queue.succeededOn .t ≠ []) :
    u.restarted → u.count ≠ 0 → u.queue.pendingOn .t ≠ [] ∨ u.queue.succeededOn .t ≠ [] := by
  intro restarted left
  cases acts with
  | pass delay => exact before restarted left
  | @expire w there =>
      show (s.queue.expire w).pendingOn .t ≠ [] ∨ (s.queue.expire w).succeededOn .t ≠ []
      rw [Queue.pendingOn_expire, Queue.succeededOn_expire]
      by_cases own : w.timer = .t
      · right
        simp [own]
      · have other : w ∉ s.queue.pendingOn .t := fun member => own (Queue.mem_pendingOn.mp member).2
        rw [List.erase_of_not_mem other, if_neg own, List.append_nil]
        exact before restarted left
  | logs there own success nonzero =>
      left
      show Queue.pendingOn _ Timer.t ≠ []
      rw [Queue.pendingOn_rearmed]
      exact List.cons_ne_nil _ _
  | @idles i c line there own other silent =>
      have split := Queue.succeededOn_take there Timer.t
      rw [if_neg fun both => other ⟨both.2, left⟩, List.nil_append] at split
      rw [State.restarted, State.restart_snoc_of_t own] at restarted
      rcases before restarted left with pending | succeeded
      · exact .inl pending
      · exact .inr fun gone => succeeded (List.Perm.eq_nil (gone ▸ split))
  | restarts there own =>
      left
      show Queue.pendingOn _ Timer.t ≠ []
      rw [Queue.expiresAfter, Queue.pendingOn_rearmed]
      exact List.cons_ne_nil _ _

/-- Before the restart one wait of `t` at most has not been handled. -/
theorem lone_of_acts (acts : Acts n1 s e u)
    (before : s.restart = none → s.queue.outstanding .t ≤ 1) :
    u.restart = none → u.queue.outstanding .t ≤ 1 := by
  intro first
  cases acts with
  | pass delay => exact before first
  | expire there =>
      simp only [Queue.outstanding_expire _ there]
      exact before first
  | logs there own success nonzero =>
      have taken := Queue.outstanding_take_of_own there own
      rw [State.restart_snoc_of_t own] at first
      have lone := before first
      simp only [Queue.outstanding_asyncWait, Queue.outstanding_expiresAt, if_true]
      omega
  | idles there own other silent =>
      have taken := Queue.outstanding_take_of_own there own
      rw [State.restart_snoc_of_t own] at first
      have lone := before first
      show (s.queue.take _).outstanding .t ≤ 1
      omega
  | restarts there own => simp [State.restart, restartOf_snoc, own] at first

/-- **One step keeps the count.** -/
theorem counted_step (good : Counted n0 n1 s) (stepped : anyStep n1 s e = some u) :
    Counted n0 n1 u := by
  have acts := acts_of_anyStep stepped
  have lighter := weight_of_acts acts good.restartsOnce good.nonneg
  constructor
  · exact onePending_of_acts acts good.onePending
  · exact nonneg_of_acts acts good.nonneg
  · exact restartsOnce_of_acts acts good.restartsOnce
  · exact Int.le_trans lighter good.light
  · exact inOrder_of_acts acts good.inOrder good.restartsOnce
  · exact alive_of_acts acts good.alive
  · exact lone_of_acts acts good.lone

end Step

theorem counted_start (n0 n1 : Nat) (now delay : Time) :
    Counted n0 n1 (State.start n0 now delay) where
  onePending := Nat.le_refl 1
  nonneg := Int.natCast_nonneg n0
  restartsOnce := rfl
  light := by
    show ((0 : Nat) : Int) + (((1 : Nat) : Int) + n0 + (n1 + 1)) ≤ n0 + n1 + 2
    omega
  inOrder := ⟨Int.le_refl _, rfl⟩
  alive := fun restarted => nomatch restarted
  lone := fun _ => Nat.le_refl 1

theorem Counted.bounded {n0 n1 : Nat} {s : State} (good : Counted n0 n1 s) : Bounded n0 n1 s := by
  have heavy : 0 ≤ weight n1 s := by
    have nonneg := good.nonneg
    unfold weight
    split <;> omega
  have inOrder := good.inOrder
  constructor
  · exact good.onePending
  · exact good.nonneg
  · unfold InOrder at inOrder
    split at inOrder
    · omega
    · obtain ⟨k, -, left, -⟩ := inOrder
      omega
  · unfold InOrder at inOrder
    split at inOrder
    · rw [inOrder.2]
      exact List.nil_prefix
    · obtain ⟨k, -, -, logged⟩ := inOrder
      rw [logged]
      exact List.take_prefix k _
  · have light := good.light
    omega
  · intro restarted noPending noReady
    apply Classical.byContradiction
    intro left
    rcases good.alive restarted left with pending | succeeded
    · exact pending (by simp [Queue.pendingOn, noPending])
    · exact succeeded (by simp [Queue.succeededOn, Queue.readyOn, noReady])

theorem counted_run {n0 n1 : Nat} {now delay : Time} {events : List AnyEvent} {s : State}
    (ran : run (anyStep n1) (State.start n0 now delay) events = some s) : Counted n0 n1 s :=
  run_invariant (fun _ _ _ before stepped => counted_step before stepped)
    (counted_start n0 n1 now delay) ran

/-- **The countdown under every order.**  Whatever the order of expiries and handlers,
every state is `Bounded`, and every step out of it is `OnlySuccess`. -/
theorem bounded_run {n0 n1 : Nat} {now delay : Time} {events : List AnyEvent} {s : State}
    (ran : run (anyStep n1) (State.start n0 now delay) events = some s) :
    Bounded n0 n1 s ∧ ∀ e u, anyStep n1 s e = some u → OnlySuccess n1 s e u := by
  refine ⟨(counted_run ran).bounded, fun e u stepped => ?_⟩
  exact onlySuccess_of_acts (acts_of_anyStep stepped)

/-- The restart comes between an expiry of `t` and its handler. -/
def restartFirst : List AnyEvent :=
  [.expire ⟨0, .t, 0⟩, .run 0, .expire ⟨1, .timer, 1500000000⟩, .expire ⟨2, .t, second⟩,
    .run 0, .run 0]

theorem bounded_run_restartFirst :
    ∃ s, run (anyStep 2) (State.start 3 0 0) restartFirst = some s ∧ s.count = 1 ∧
      Bounded 3 2 s ∧ ∀ e u, anyStep 2 s e = some u → OnlySuccess 2 s e u := by
  have ran : run (anyStep 2) (State.start 3 0 0) restartFirst = some _ := rfl
  exact ⟨_, ran, rfl, bounded_run ran⟩

end Lynx.Countdown
